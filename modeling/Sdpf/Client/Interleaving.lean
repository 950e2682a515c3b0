import Sdpf.Client.CallMethod
import Sdpf.Semantics.Machine

/-!
# Calls and the loop thread interleaved

Any number of asynchronous calls run on threads of their own while the loop thread
processes responses and closes the channel. `World.step` cuts `call_method` and
`process_response` at the points where the mutex is free, and between the accesses to a
controller outside it; `Transition` lists what each piece does.

A world also remembers which call stored each entry of the table and which callbacks
have been run, so that an outcome can be attributed to its call.
-/

namespace Sdpf.Client

open Sdpf.Data Sdpf.Channel Sdpf.Semantics

/-- How far a call of `call_method` has got. -/
inductive Pc where
  | idle
  /-- The channel was found connected. -/
  | checked
  /-- The controller is marked and an id drawn. -/
  | marked
  | registered
  /-- `send_packet` has failed. -/
  | failed
  /-- The controller has been reset after the failure. -/
  | reset
  | returned (ret : Int)
deriving DecidableEq, Repr

namespace Pc

/-- The call has not come to the table, or was turned away before it. -/
def Unregistered (pc : Pc) : Prop :=
  pc = .idle ∨ pc = .checked ∨ pc = .marked ∨ pc = .returned (-2) ∨ pc = .returned (-3)

/-- The send of the call has failed. -/
def SendFailed (pc : Pc) : Prop :=
  pc = .failed ∨ pc = .reset ∨ pc = .returned (-4)

end Pc

/-- A response that found its request: its id, the call that stored the entry, the
controller stored, and the contents of the response. -/
structure Answer where
  id : UInt32
  call : Nat
  ctrl : Nat
  code : Int32
  body : List UInt8
deriving DecidableEq, Repr

/-- How far the loop thread has got with a response. -/
inductive Phase where
  | idle
  /-- `remove_request` has returned a controller. -/
  | found (answer : Answer)
  /-- The error code of the controller has been read. -/
  | inspected (answer : Answer) (bnotify : Bool)
  /-- The callback has been run. -/
  | completed (answer : Answer) (bnotify : Bool)
deriving DecidableEq, Repr

/-- A done callback was run: for which call, through which controller, with which
error code, after a response with which body. -/
structure Firing where
  call : Nat
  ctrl : Nat
  ec : Int32
  body : List UInt8
deriving DecidableEq, Repr

/-- A client channel with the threads at work on it. -/
structure World where
  ch : RpcChannel
  pc : Nat → Pc
  /-- The id a call has drawn. -/
  drawn : Nat → Option UInt32
  /-- The call that last stored an entry under an id. -/
  owner : UInt32 → Nat
  phase : Phase
  fired : List Firing

/-- A step of one of the threads, or of the connection underneath. -/
inductive Action where
  | check (n : Nat)
  | mark (n : Nat)
  | register (n : Nat)
  | send (n : Nat) (ret : Int)
  | reset (n : Nat)
  | remove (n : Nat)
  | respond (id : UInt32) (code : Int32) (body : List UInt8)
  | inspect
  | complete
  | remark
  | connection (up : Bool)
  | close
deriving DecidableEq, Repr

namespace World

def setPc (w : World) (n : Nat) (pc : Pc) : World := { w with pc := Function.update w.pc n pc }

/-- The callbacks `on_close` runs. -/
def closeFirings (w : World) : List Firing :=
  if w.ch.serving then
    []
  else
    w.ch.requests.entries.filterMap fun entry =>
      if (w.ch.ctrls entry.2).done then some ⟨w.owner entry.1, entry.2, enetwork, []⟩ else none

/-- The callback run for an answered request. -/
def answerFiring (w : World) (answer : Answer) : List Firing :=
  if (w.ch.ctrls answer.ctrl).done then
    [⟨answer.call, answer.ctrl,
      RpcChannel.outcome (w.ch.ctrls answer.ctrl).resp answer.code answer.body, answer.body⟩]
  else
    []

/-- Take a step, if it is enabled. Call number `n` has the arguments `calls n`. -/
def step (calls : Nat → Call) (w : World) : Action → Option World
  | .check n =>
      if w.pc n ≠ .idle then
        none
      else if w.ch.connected = false then
        some (w.setPc n (.returned (-2)))
      else if w.ch.serving then
        some (w.setPc n (.returned (-3)))
      else
        some (w.setPc n .checked)
  | .mark n =>
      if w.pc n ≠ .checked then
        none
      else
        match w.ch.mark (calls n) with
        | none => some (w.setPc n (.returned (-3)))
        | some marked =>
            some { w.setPc n .marked with
              ch := (marked.draw (calls n)).2
              drawn := Function.update w.drawn n (some (marked.draw (calls n)).1) }
  | .register n =>
      if w.pc n ≠ .marked then
        none
      else
        match w.drawn n with
        | none => none
        | some id =>
            match w.ch.register (calls n) id with
            | none => some (w.setPc n (.returned (-3)))
            | some registered =>
                some { w.setPc n .registered with
                  ch := registered
                  owner := Function.update w.owner id n }
  | .send n ret =>
      if w.pc n ≠ .registered then
        none
      else if ret ≠ 0 then
        some (w.setPc n .failed)
      else if w.ch.connected then
        some (w.setPc n (.returned 0))
      else
        none
  | .reset n =>
      if w.pc n ≠ .failed then
        none
      else
        some { w.setPc n .reset with ch := w.ch.resetController (calls n).ctrl }
  | .remove n =>
      if w.pc n ≠ .reset then
        none
      else
        match w.drawn n with
        | none => none
        | some id => some { w.setPc n (.returned (-4)) with ch := (w.ch.removeRequest id).2 }
  | .respond id code body =>
      if w.phase ≠ .idle then
        none
      else
        match (w.ch.removeRequest id).1 with
        | none => some { w with ch := (w.ch.removeRequest id).2 }
        | some ctrl =>
            some { w with
              ch := (w.ch.removeRequest id).2
              phase := .found ⟨id, w.owner id, ctrl, code, body⟩ }
  | .inspect =>
      match w.phase with
      | .found answer =>
          some { w with phase := .inspected answer ((w.ch.ctrls answer.ctrl).ec ≠ 0) }
      | _ => none
  | .complete =>
      match w.phase with
      | .inspected answer bnotify =>
          some { w with
            ch := w.ch.setEc answer.ctrl
              (RpcChannel.outcome (w.ch.ctrls answer.ctrl).resp answer.code answer.body)
            fired := w.fired ++ w.answerFiring answer
            phase := .completed answer bnotify }
      | _ => none
  | .remark =>
      match w.phase with
      | .completed answer bnotify =>
          some { w with
            ch := if bnotify then w.ch.setEc answer.ctrl enotifyMark else w.ch
            phase := .idle }
      | _ => none
  | .connection up => some { w with ch := { w.ch with connected := up } }
  | .close =>
      if w.phase ≠ .idle then
        none
      else
        some { w with
          ch := w.ch.onClose.2
          fired := w.fired ++ w.closeFirings }

/-- A client channel before its first call. -/
structure Initial (w : World) : Prop where
  client : w.ch.serving = false
  id : w.ch.id = 0
  requests : w.ch.requests = ∅
  pc : ∀ n, w.pc n = .idle
  drawn : ∀ n, w.drawn n = none
  phase : w.phase = .idle
  fired : w.fired = []

/-- The response being processed belongs to the call. -/
def Completing (w : World) (n : Nat) : Prop :=
  match w.phase with
  | .found answer | .inspected answer _ => answer.call = n
  | .idle | .completed _ _ => False

/-- The response being processed. -/
def answering (w : World) : Option Answer :=
  match w.phase with
  | .idle => none
  | .found answer | .inspected answer _ | .completed answer _ => some answer

/-- The callbacks run for a call. -/
def firings (w : World) (n : Nat) : List Firing := w.fired.filter fun firing => firing.call = n

/-- The done callback of the call has been run. -/
def Fired (w : World) (n : Nat) : Prop := ∃ firing ∈ w.fired, firing.call = n

end World

/-- The machine of all interleavings. -/
def clientMachine (calls : Nat → Call) : Machine World Action where
  Initial := World.Initial
  step := World.step calls

/-- What each step does. -/
inductive Transition (calls : Nat → Call) (w : World) : Action → World → Prop where
  | checkRefused {n : Nat} {ret : Int} (was : w.pc n = .idle) (error : ret = -2 ∨ ret = -3) :
      Transition calls w (.check n) (w.setPc n (.returned ret))
  | checkPassed {n : Nat} (was : w.pc n = .idle) (connected : w.ch.connected = true) :
      Transition calls w (.check n) (w.setPc n .checked)
  | markRefused {n : Nat} (was : w.pc n = .checked) :
      Transition calls w (.mark n) (w.setPc n (.returned (-3)))
  | markAccepted {n : Nat} {change : RpcController → RpcController} (was : w.pc n = .checked)
      (doneKept : ∀ controller, (change controller).done = controller.done)
      (marks : ∀ controller,
        (change controller).ec = if (calls n).IsNotify then enotifyMark else 0)
      (resp : ∀ controller, (change controller).resp = (calls n).response) :
      Transition calls w (.mark n) { w.setPc n .marked with
        ch := { w.ch with id := w.ch.id + 1 }.modify (calls n).ctrl change
        drawn := Function.update w.drawn n (some (w.ch.id + 1)) }
  | registerRefused {n : Nat} (was : w.pc n = .marked)
      (marked : (w.ch.ctrls (calls n).ctrl).ec ≠ 0) :
      Transition calls w (.register n) (w.setPc n (.returned (-3)))
  | registerAccepted {n : Nat} {id : UInt32} (was : w.pc n = .marked)
      (drew : w.drawn n = some id) :
      Transition calls w (.register n) { w.setPc n .registered with
        ch := { w.ch with requests := w.ch.requests.insert id (calls n).ctrl }
        owner := Function.update w.owner id n }
  | sent {n : Nat} (was : w.pc n = .registered) (connected : w.ch.connected = true) :
      Transition calls w (.send n 0) (w.setPc n (.returned 0))
  | sendFailed {n : Nat} {ret : Int} (was : w.pc n = .registered) (error : ret ≠ 0) :
      Transition calls w (.send n ret) (w.setPc n .failed)
  | reset {n : Nat} (was : w.pc n = .failed) :
      Transition calls w (.reset n)
        { w.setPc n .reset with ch := w.ch.resetController (calls n).ctrl }
  | removed {n : Nat} {id : UInt32} (was : w.pc n = .reset) (drew : w.drawn n = some id) :
      Transition calls w (.remove n)
        { w.setPc n (.returned (-4)) with ch := (w.ch.removeRequest id).2 }
  | unknown {id : UInt32} {code : Int32} {body : List UInt8} (was : w.phase = .idle)
      (absent : w.ch.requests.lookup id = none) :
      Transition calls w (.respond id code body) w
  | found {id : UInt32} {code : Int32} {body : List UInt8} {ctrl : Nat} (was : w.phase = .idle)
      (stored : w.ch.requests.lookup id = some ctrl) :
      Transition calls w (.respond id code body) { w with
        ch := (w.ch.removeRequest id).2
        phase := .found ⟨id, w.owner id, ctrl, code, body⟩ }
  | inspected {answer : Answer} (was : w.phase = .found answer) :
      Transition calls w .inspect
        { w with phase := .inspected answer ((w.ch.ctrls answer.ctrl).ec ≠ 0) }
  | completed {answer : Answer} {bnotify : Bool} (was : w.phase = .inspected answer bnotify) :
      Transition calls w .complete { w with
        ch := w.ch.setEc answer.ctrl
          (RpcChannel.outcome (w.ch.ctrls answer.ctrl).resp answer.code answer.body)
        fired := w.fired ++ w.answerFiring answer
        phase := .completed answer bnotify }
  | remarked {answer : Answer} {bnotify : Bool} (was : w.phase = .completed answer bnotify) :
      Transition calls w .remark { w with
        ch := if bnotify then w.ch.setEc answer.ctrl enotifyMark else w.ch
        phase := .idle }
  | connection {up : Bool} :
      Transition calls w (.connection up) { w with ch := { w.ch with connected := up } }
  | closed (was : w.phase = .idle) :
      Transition calls w .close { w with
        ch := w.ch.onClose.2
        fired := w.fired ++ w.closeFirings }

namespace World

variable {calls : Nat → Call} {w next : World}

/-- Every step is one of the listed transitions. -/
theorem step_transition {action : Action} (transition : w.step calls action = some next) :
    Transition calls w action next := by
  cases action with
  | check n =>
      simp only [step] at transition
      split_ifs at transition with other down serving
      · cases transition
        exact .checkRefused (not_not.mp other) (.inl rfl)
      · cases transition
        exact .checkRefused (not_not.mp other) (.inr rfl)
      · cases transition
        exact .checkPassed (not_not.mp other) (by simpa using down)
  | mark n =>
      simp only [step] at transition
      split_ifs at transition with other
      cases accepted : w.ch.mark (calls n) with
      | none =>
          simp only [accepted] at transition
          cases transition
          exact .markRefused (not_not.mp other)
      | some marked =>
          obtain ⟨change, rfl, doneKept, marks, _⟩ := RpcChannel.mark_some accepted
          simp only [accepted] at transition
          cases transition
          have together : ((w.ch.modify (calls n).ctrl change).draw (calls n)).2 =
              { w.ch with id := w.ch.id + 1 }.modify (calls n).ctrl fun controller =>
                { change controller with resp := (calls n).response } := by
            simp [RpcChannel.draw, RpcChannel.modify]
          rw [together]
          exact .markAccepted (not_not.mp other) doneKept marks fun _ => rfl
  | register n =>
      simp only [step] at transition
      split_ifs at transition with other
      cases drew : w.drawn n with
      | none => simp [drew] at transition
      | some id =>
          cases accepted : w.ch.register (calls n) id with
          | none =>
              simp only [drew, accepted] at transition
              cases transition
              refine .registerRefused (not_not.mp other) fun ordinary => ?_
              rw [RpcChannel.register_ordinary ordinary] at accepted
              cases accepted
          | some registered =>
              simp only [drew, accepted] at transition
              cases transition
              rw [RpcChannel.register_some accepted]
              exact .registerAccepted (not_not.mp other) drew
  | send n ret =>
      simp only [step] at transition
      split_ifs at transition with other error connected
      · cases transition
        exact .sendFailed (not_not.mp other) error
      · cases transition
        obtain rfl := not_not.mp error
        exact .sent (not_not.mp other) connected
  | reset n =>
      simp only [step] at transition
      split_ifs at transition with other
      cases transition
      exact .reset (not_not.mp other)
  | remove n =>
      simp only [step] at transition
      split_ifs at transition with other
      cases drew : w.drawn n with
      | none => simp [drew] at transition
      | some id =>
          simp only [drew] at transition
          cases transition
          exact .removed (not_not.mp other) drew
  | respond id code body =>
      simp only [step] at transition
      split_ifs at transition with other
      cases stored : w.ch.requests.lookup id with
      | none =>
          rw [RpcChannel.removeRequest_none stored] at transition
          cases transition
          exact .unknown (not_not.mp other) stored
      | some ctrl =>
          simp only [RpcChannel.removeRequest_found, stored] at transition
          cases transition
          exact .found (not_not.mp other) stored
  | inspect =>
      simp only [step] at transition
      split at transition
      · next answer was =>
          cases transition
          exact .inspected was
      · cases transition
  | complete =>
      simp only [step] at transition
      split at transition
      · next answer bnotify was =>
          cases transition
          exact .completed was
      · cases transition
  | remark =>
      simp only [step] at transition
      split at transition
      · next answer bnotify was =>
          cases transition
          exact .remarked was
      · cases transition
  | connection up =>
      cases transition
      exact .connection
  | close =>
      simp only [step] at transition
      split_ifs at transition with other
      cases transition
      exact .closed (not_not.mp other)

/-- How a step moves one call. -/
inductive Progress (n : Nat) (action : Action) (was now : Pc) : Prop where
  | same (same : now = was)
  | early (early : was = .idle ∨ was = .checked ∨ was = .marked) (now : now.Unregistered)
  | register (was : was = .marked) (now : now = .registered) (is : action = .register n)
  | sent (was : was = .registered) (now : now = .returned 0)
  | failed {ret : Int} (was : was = .registered) (now : now = .failed)
      (is : action = .send n ret) (error : ret ≠ 0)
  | reset (was : was = .failed) (now : now = .reset)
  | removed (was : was = .reset) (now : now = .returned (-4))

/-- Each step moves one call, if any, along its way. -/
theorem step_progress {action : Action} (transition : w.step calls action = some next) (n : Nat) :
    Progress n action (w.pc n) (next.pc n) := by
  have moves : ∀ m pc, Progress m action (w.pc m) pc →
      Progress n action (w.pc n) ((w.setPc m pc).pc n) := by
    intro m pc progress
    by_cases same : n = m
    · subst same
      simpa [setPc] using progress
    · exact .same (by simp [setPc, same])
  cases step_transition transition with
  | checkRefused was error =>
      refine moves _ _ (.early (.inl was) ?_)
      rcases error with rfl | rfl <;> simp [Pc.Unregistered]
  | checkPassed was connected => exact moves _ _ (.early (.inl was) (by simp [Pc.Unregistered]))
  | markRefused was => exact moves _ _ (.early (.inr (.inl was)) (by simp [Pc.Unregistered]))
  | markAccepted was doneKept marks resp =>
      exact moves _ _ (.early (.inr (.inl was)) (by simp [Pc.Unregistered]))
  | registerRefused was marked =>
      exact moves _ _ (.early (.inr (.inr was)) (by simp [Pc.Unregistered]))
  | registerAccepted was drew => exact moves _ _ (.register was rfl rfl)
  | sent was connected => exact moves _ _ (.sent was rfl)
  | sendFailed was error => exact moves _ _ (.failed was rfl rfl error)
  | reset was => exact moves _ _ (.reset was rfl)
  | removed was drew => exact moves _ _ (.removed was rfl)
  | _ => exact .same rfl

/-- A call that has returned stays where it is. -/
theorem step_returned {action : Action} {n : Nat} {ret : Int} (returned : w.pc n = .returned ret)
    (transition : w.step calls action = some next) : next.pc n = .returned ret := by
  cases step_progress transition n with
  | same same => rw [same, returned]
  | early was now => rcases was with was | was | was <;> rw [returned] at was <;> cases was
  | register was now is => rw [returned] at was; cases was
  | sent was now => rw [returned] at was; cases was
  | failed was now is => rw [returned] at was; cases was
  | reset was now => rw [returned] at was; cases was
  | removed was now => rw [returned] at was; cases was

/-- A call that has come to the table keeps its id. -/
theorem step_drawn {action : Action} (transition : w.step calls action = some next) {n : Nat}
    (registered : ¬ (w.pc n).Unregistered) : next.drawn n = w.drawn n := by
  cases step_transition transition with
  | markAccepted was doneKept marks resp =>
      refine Function.update_of_ne ?_ _ _
      rintro rfl
      exact registered (.inr (.inl was))
  | _ => rfl

/-- A call that has come to the table does not go back. -/
theorem step_registered {action : Action} (transition : w.step calls action = some next)
    {n : Nat} (registered : ¬ (w.pc n).Unregistered) : ¬ (next.pc n).Unregistered := by
  cases step_progress transition n with
  | same same => rwa [same]
  | early was now =>
      refine absurd ?_ registered
      rcases was with was | was | was <;> simp [was, Pc.Unregistered]
  | register was now is => simp [now, Pc.Unregistered]
  | sent was now => simp [now, Pc.Unregistered]
  | failed was now is error => simp [now, Pc.Unregistered]
  | reset was now => simp [now, Pc.Unregistered]
  | removed was now => simp [now, Pc.Unregistered]

/-- Nor when one call is moved on. -/
theorem setPc_registered {n m : Nat} {pc : Pc}
    (onward : ¬ (w.pc n).Unregistered → ¬ pc.Unregistered)
    (registered : ¬ (w.pc m).Unregistered) : ¬ ((w.setPc n pc).pc m).Unregistered := by
  by_cases same : m = n
  · subst same
    simpa [setPc] using onward registered
  · simpa [setPc, same] using registered

/-- A call that is moved elsewhere is none of the marked ones. -/
theorem setPc_marked {n m : Nat} {pc : Pc} (unmarked : pc ≠ .marked)
    (marked : (w.setPc n pc).pc m = .marked) : m ≠ n ∧ w.pc m = .marked := by
  by_cases same : m = n
  · subst same
    exact absurd (by simpa [setPc] using marked) unmarked
  · exact ⟨same, by simpa [setPc, same] using marked⟩

/-- A client channel before its first call; every controller has a callback. -/
def fresh (connected : Bool) : World where
  ch := ⟨connected, false, 0, ∅, fun _ => ⟨none, true, 0, CStr.empty⟩⟩
  pc _ := .idle
  drawn _ := none
  owner _ := 0
  phase := .idle
  fired := []

/-- A client channel without calls is an initial world. -/
theorem fresh_initial (connected : Bool) : (fresh connected).Initial := by
  constructor <;> intros <;> rfl

end World

/-- Calls of method "b" of service "a", each with a controller of its own. -/
def plainCalls (n : Nat) : Call :=
  ⟨CStr.ofBlock [0x61], CStr.ofBlock [0x62], none, none, n⟩

end Sdpf.Client
