import Sdpf.Client.Waiting.Calls

/-!
# Steps of synchronous calls

What the parts of a step leave alone, and `Transition`, which names every step by what it
does. The invariants of the machine go by its cases.
-/

namespace Sdpf.Client

open Sdpf.Semantics Sdpf.Data Sdpf.Channel

variable {Id : Type}

namespace SyncCalls

variable [DecidableEq Id]

section Frames

variable (s : SyncCalls Id) (id other : Id)

/-- One call moves, the others stay. -/
@[simp] theorem goto_pc (pc : CallerPc) :
    (s.goto id pc).pc other = if other = id then pc else s.pc other :=
  Function.update_apply ..

@[simp] theorem goto_mutexRequests (pc : CallerPc) :
    (s.goto id pc).mutexRequests = s.mutexRequests := rfl

@[simp] theorem goto_mutexes (pc : CallerPc) :
    (s.goto id pc).mutexes other = s.mutexes other := rfl

@[simp] theorem goto_loop (pc : CallerPc) : (s.goto id pc).loop = s.loop := rfl

@[simp] theorem goto_connected (pc : CallerPc) :
    (s.goto id pc).connected = s.connected := rfl

@[simp] theorem goto_requests (pc : CallerPc) : (s.goto id pc).requests = s.requests := rfl

@[simp] theorem goto_sent (pc : CallerPc) :
    (s.goto id pc).sent other = s.sent other := rfl

/-- One mutex changes hands. -/
@[simp] theorem own_mutexes (owner : Option (Party Id)) :
    (s.own id owner).mutexes other = if other = id then owner else s.mutexes other :=
  Function.update_apply ..

@[simp] theorem own_pc (owner : Option (Party Id)) :
    (s.own id owner).pc other = s.pc other := rfl

@[simp] theorem own_mutexRequests (owner : Option (Party Id)) :
    (s.own id owner).mutexRequests = s.mutexRequests := rfl

@[simp] theorem own_loop (owner : Option (Party Id)) : (s.own id owner).loop = s.loop := rfl

/-- One controller is changed. -/
@[simp] theorem modify_ctrls (change : RpcController → RpcController) :
    (s.modify id change).ctrls other = if other = id then change (s.ctrls id) else s.ctrls other :=
  Function.update_apply ..

@[simp] theorem modify_pc (change : RpcController → RpcController) :
    (s.modify id change).pc other = s.pc other := rfl

@[simp] theorem modify_filled (change : RpcController → RpcController) :
    (s.modify id change).filled other = s.filled other := rfl

@[simp] theorem modify_notified (change : RpcController → RpcController) :
    (s.modify id change).notified other = s.notified other := rfl

@[simp] theorem modify_loop (change : RpcController → RpcController) :
    (s.modify id change).loop = s.loop := rfl

variable (completion : Settlement)

/-- The call that is signalled wakes up if it sleeps. -/
@[simp] theorem signal_pc :
    (s.signal id completion).pc other =
      if other = id ∧ s.pc id = .sleeping then .awake .notified else s.pc other := by
  by_cases sleeps : s.pc id = .sleeping
  · simp [signal, sleeps, Function.update_apply]
  · simp [signal, sleeps]

/-- The completion counts as signalled. -/
@[simp] theorem signal_notified :
    (s.signal id completion).notified other =
      if other = id then some completion else s.notified other :=
  Function.update_apply ..

@[simp] theorem signal_ctrls :
    (s.signal id completion).ctrls other = s.ctrls other := rfl

@[simp] theorem signal_filled :
    (s.signal id completion).filled other = s.filled other := rfl

@[simp] theorem signal_sent :
    (s.signal id completion).sent other = s.sent other := rfl

@[simp] theorem signal_loop : (s.signal id completion).loop = s.loop := rfl

@[simp] theorem signal_connected :
    (s.signal id completion).connected = s.connected := rfl

variable (after : After Id)

/-- A completion leaves its error code. -/
@[simp] theorem settle_ctrls :
    (s.settle id completion after).ctrls other =
      if other = id then { s.ctrls id with ec := completion.ec (s.ctrls id).resp }
      else s.ctrls other :=
  Function.update_apply ..

/-- A completion leaves its response, if it brings one. -/
@[simp] theorem settle_filled :
    (s.settle id completion after).filled other =
      if other = id then (completion.filled (s.ctrls id).resp).or (s.filled id)
      else s.filled other :=
  Function.update_apply ..

@[simp] theorem settle_loop :
    (s.settle id completion after).loop = .notifying id completion after := rfl

@[simp] theorem settle_pc : (s.settle id completion after).pc other = s.pc other := rfl

@[simp] theorem settle_notified :
    (s.settle id completion after).notified other = s.notified other := rfl

@[simp] theorem proceed_pc : (s.proceed id after).pc other = s.pc other := by
  rcases after with (_ | _) | rest <;> rfl

@[simp] theorem proceed_notified :
    (s.proceed id after).notified other = s.notified other := by
  rcases after with (_ | _) | rest <;> rfl

omit [DecidableEq Id] in
@[simp] theorem resumption_completing : (resumption after).completing = none := by
  cases after <;> rfl

omit [DecidableEq Id] in
@[simp] theorem resumption_released : (resumption after).released = none := by
  cases after <;> rfl

omit [DecidableEq Id] in
@[simp] theorem resumption_bringing : (resumption after).bringing = none := by
  cases after <;> rfl

omit [DecidableEq Id] in
@[simp] theorem resumption_answering : (resumption after).answering = none := by
  cases after <;> rfl

omit [DecidableEq Id] in
@[simp] theorem resumption_marks : (resumption after).marks = false := by
  cases after <;> rfl

omit [DecidableEq Id] in
@[simp] theorem resumption_closes : (resumption after).closes = after.closes := by
  cases after <;> rfl

end Frames

/-- Every step, by what it does. -/
inductive Transition (s : SyncCalls Id) : SyncAction Id → SyncCalls Id → Prop where
  | refused {id response} (down : s.connected = false) : Transition s (.call id response) s
  | call {id response} (idle : s.pc id = .idle) (up : s.connected = true) :
      Transition s (.call id response)
        ((s.modify id fun ctrl => { ctrl with ec := 0, resp := response }).goto id .entering)
  | sends {id accepted} (locked : s.pc id = .locked) (up : s.connected = true) :
      Transition s (.send id accepted)
        ({ s with sent := Function.update s.sent id true }.goto id .sent)
  | fails {id accepted} (locked : s.pc id = .locked) :
      Transition s (.send id accepted) (s.goto id .unsent)
  | wakes {id action} (sleeps : s.pc id = .sleeping) {wakeup} (alone : wakeup ≠ .notified) :
      Transition s action (s.goto id (.awake wakeup))
  | enter {id} (entering : s.pc id = .entering) (free : s.mutexRequests = none) :
      Transition s (.go id) ({ s with mutexRequests := some (.caller id) }.goto id .inserting)
  | insert {id} (inserting : s.pc id = .inserting) :
      Transition s (.go id)
        ({ s with requests := id :: s.requests, mutexRequests := none }.goto id .registered)
  | lock {id} (registered : s.pc id = .registered) (free : s.mutexes id = none) :
      Transition s (.go id) ((s.own id (some (.caller id))).goto id .locked)
  | wait {id} (sent : s.pc id = .sent) :
      Transition s (.go id) ((s.own id none).goto id .sleeping)
  | resume {id wakeup} (awake : s.pc id = .awake wakeup) (free : s.mutexes id = none) :
      Transition s (.go id) ((s.own id (some (.caller id))).goto id (.resumed wakeup))
  | leave {id} (leaves : s.pc id = .unsent ∨ ∃ wakeup, s.pc id = .resumed wakeup) :
      Transition s (.go id) ((s.own id none).goto id .returned)
  | response {id code body} (idle : s.loop = .idle) (up : s.connected = true)
      (sent : s.sent id = true) :
      Transition s (.response id code body) { s with loop := .finding id code body }
  | stop (idle : s.loop = .idle) : Transition s .stop { s with connected := false }
  | close (idle : s.loop = .idle) (down : s.connected = false) :
      Transition s .close { s with loop := .closing }
  | find {id code body} (finding : s.loop = .finding id code body) (free : s.mutexRequests = none) :
      Transition s .turn { s with mutexRequests := some .loop, loop := .removing id code body }
  | erase {id code body} (removing : s.loop = .removing id code body) (stored : id ∈ s.requests)
      (ordinary : (s.ctrls id).ec = 0) :
      Transition s .turn { s with
        requests := s.requests.erase id
        mutexRequests := none
        loop := .found id code body false }
  | keep {id code body} (removing : s.loop = .removing id code body) (stored : id ∈ s.requests)
      (marked : (s.ctrls id).ec ≠ 0) :
      Transition s .turn { s with mutexRequests := none, loop := .found id code body true }
  | miss {id code body} (removing : s.loop = .removing id code body) (absent : id ∉ s.requests) :
      Transition s .turn { s with mutexRequests := none, loop := .idle }
  | answer {id code body bnotify} (found : s.loop = .found id code body bnotify) :
      Transition s .turn (s.settle id (.response code body) (.response bnotify))
  | begin (closing : s.loop = .closing) (free : s.mutexRequests = none) :
      Transition s .turn { s with mutexRequests := some .loop, loop := .clearing s.requests }
  | next {id rest} (clearing : s.loop = .clearing (id :: rest)) :
      Transition s .turn (s.settle id .close (.close rest))
  | clear (clearing : s.loop = .clearing []) :
      Transition s .turn { s with
        requests := []
        mutexRequests := none
        closed := true
        loop := .idle }
  | hold {id completion after} (notifying : s.loop = .notifying id completion after)
      (free : s.mutexes id = none) :
      Transition s .turn { s.own id (some .loop) with loop := .holding id completion after }
  | unhold {id completion after} (holding : s.loop = .holding id completion after) :
      Transition s .turn { s.own id none with loop := .signalling id completion after }
  | signal {id completion after} (signalling : s.loop = .signalling id completion after) :
      Transition s .turn ((s.signal id completion).proceed id after)

/-- A step that is taken is one of these. -/
theorem step_cases {s next : SyncCalls Id} {action : SyncAction Id}
    (taken : s.step action = some next) : Transition s action next := by
  cases action with
  | call id response =>
      simp only [step, Option.ite_none_right_eq_some, Option.some.injEq] at taken
      obtain ⟨idle, rfl⟩ := taken
      unfold call
      split_ifs with up
      · exact .call idle up
      · exact .refused (by simpa using up)
  | send id accepted =>
      simp only [step, Option.ite_none_right_eq_some, Option.some.injEq] at taken
      obtain ⟨locked, rfl⟩ := taken
      unfold send
      split_ifs with both
      · exact .sends locked both.1
      · exact .fails locked
  | stir id =>
      simp only [step, Option.ite_none_right_eq_some, Option.some.injEq] at taken
      obtain ⟨sleeps, rfl⟩ := taken
      exact .wakes sleeps (by decide)
  | timeout id =>
      simp only [step, Option.ite_none_right_eq_some, Option.some.injEq] at taken
      obtain ⟨sleeps, rfl⟩ := taken
      exact .wakes sleeps (by decide)
  | go id =>
      simp only [step, go] at taken
      split at taken
      · next entering =>
          simp only [Option.ite_none_right_eq_some, Option.some.injEq] at taken
          obtain ⟨free, rfl⟩ := taken
          exact .enter entering free
      · next inserting =>
          cases taken
          exact .insert inserting
      · next registered =>
          simp only [Option.ite_none_right_eq_some, Option.some.injEq] at taken
          obtain ⟨free, rfl⟩ := taken
          exact .lock registered free
      · next unsent =>
          cases taken
          exact .leave (.inl unsent)
      · next sent =>
          cases taken
          exact .wait sent
      · next wakeup awake =>
          simp only [Option.ite_none_right_eq_some, Option.some.injEq] at taken
          obtain ⟨free, rfl⟩ := taken
          exact .resume awake free
      · next wakeup resumed =>
          cases taken
          exact .leave (.inr ⟨wakeup, resumed⟩)
      all_goals cases taken
  | response id code body =>
      simp only [step, Option.ite_none_right_eq_some, Option.some.injEq] at taken
      obtain ⟨⟨idle, up, sent⟩, rfl⟩ := taken
      exact .response idle up sent
  | stop =>
      simp only [step, Option.ite_none_right_eq_some, Option.some.injEq] at taken
      obtain ⟨⟨idle, up⟩, rfl⟩ := taken
      exact .stop idle
  | close =>
      simp only [step, Option.ite_none_right_eq_some, Option.some.injEq] at taken
      obtain ⟨⟨idle, down, _⟩, rfl⟩ := taken
      exact .close idle down
  | turn =>
      simp only [step, turn] at taken
      split at taken
      · cases taken
      · next id code body finding =>
          simp only [Option.ite_none_right_eq_some, Option.some.injEq] at taken
          obtain ⟨free, rfl⟩ := taken
          exact .find finding free
      · next id code body removing =>
          cases taken
          unfold remove
          split_ifs with stored ordinary
          · exact .erase removing stored ordinary
          · exact .keep removing stored ordinary
          · exact .miss removing stored
      · next id code body bnotify found =>
          cases taken
          exact .answer found
      · next closing =>
          simp only [Option.ite_none_right_eq_some, Option.some.injEq] at taken
          obtain ⟨free, rfl⟩ := taken
          exact .begin closing free
      · next id rest clearing =>
          cases taken
          exact .next clearing
      · next clearing =>
          cases taken
          exact .clear clearing
      · next id completion after notifying =>
          simp only [Option.ite_none_right_eq_some, Option.some.injEq] at taken
          obtain ⟨free, rfl⟩ := taken
          exact .hold notifying free
      · next id completion after holding =>
          cases taken
          exact .unhold holding
      · next id completion after signalling =>
          cases taken
          exact .signal signalling

end SyncCalls

end Sdpf.Client
