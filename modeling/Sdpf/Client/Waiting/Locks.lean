import Sdpf.Client.Waiting.Steps

/-!
# Owners of the mutexes

`mutex_requests_` and the mutex of each controller are owned by the thread that is between
its two operations on them (`Locks`), before and after each step.
-/

namespace Sdpf.Client

open Sdpf.Semantics Sdpf.Data Sdpf.Channel

variable {Id : Type}

namespace SyncCalls

variable [DecidableEq Id]

/-- The calls that wait for a completion. -/
def todo (s : SyncCalls Id) : List Id :=
  s.loop.rest.getD s.requests

/-- Signalling takes no call from those that wait. -/
@[simp] theorem signal_todo (s : SyncCalls Id) (id : Id) (completion : Settlement) :
    (s.signal id completion).todo = s.todo := rfl

/-- The completion has left its error code and its response message. -/
def Settled (s : SyncCalls Id) (id : Id) (completion : Settlement) : Prop :=
  (s.ctrls id).ec = completion.ec (s.ctrls id).resp ∧
    s.filled id = completion.filled (s.ctrls id).resp

/-- Each mutex is owned by the thread that is between its two operations on it. -/
structure Locks (s : SyncCalls Id) : Prop where
  inserter : ∀ id, s.mutexRequests = some (.caller id) ↔ s.pc id = .inserting
  clearer : s.mutexRequests = some .loop ↔ s.loop.clears = true
  holder : ∀ id other, s.mutexes id = some (.caller other) ↔ other = id ∧ (s.pc id).holds = true
  held : ∀ id, s.mutexes id = some .loop ↔ s.loop.held = some id

omit [DecidableEq Id] in
/-- Nobody clears the table while a call is inserting. -/
theorem Locks.rest_of_inserting {s : SyncCalls Id} (locks : s.Locks) {id : Id}
    (inserting : s.pc id = .inserting) : s.loop.rest = none := by
  have owned := (locks.inserter id).mpr inserting
  refine LoopPc.rest_of_clears (Bool.eq_false_iff.mpr fun clears => ?_)
  rw [locks.clearer.mpr clears] at owned
  cases owned

omit [DecidableEq Id] in
/-- A call whose mutex is free, or owned by the loop thread, does not hold it. -/
theorem Locks.apart {s : SyncCalls Id} (locks : s.Locks) {id : Id}
    (free : s.mutexes id = none ∨ s.mutexes id = some .loop) : (s.pc id).holds = false := by
  refine Bool.eq_false_iff.mpr fun holds => ?_
  rw [(locks.holder id id).mpr ⟨rfl, holds⟩] at free
  simp at free

/-- Controllers are not locks. -/
theorem Locks.modify {s : SyncCalls Id} (locks : s.Locks) (id : Id)
    (change : RpcController → RpcController) : (s.modify id change).Locks :=
  ⟨locks.inserter, locks.clearer, locks.holder, locks.held⟩

/-- A call moves between two places that own the same. -/
theorem Locks.moves {s : SyncCalls Id} (locks : s.Locks) {id : Id} {pc : CallerPc}
    (outside : s.pc id ≠ .inserting) (outside' : pc ≠ .inserting)
    (holds : pc.holds = (s.pc id).holds) : (s.goto id pc).Locks := by
  refine ⟨fun other => ?_, locks.clearer, fun other owner => ?_, locks.held⟩
  · by_cases same : other = id
    · subst same
      have owned := locks.inserter other
      simpa [outside, outside'] using owned
    · simpa [same] using locks.inserter other
  · by_cases same : other = id
    · subst same
      simpa [holds] using locks.holder other owner
    · simpa [same] using locks.holder other owner

/-- A call locks its controller. -/
theorem Locks.takes {s : SyncCalls Id} (locks : s.Locks) {id : Id} {pc : CallerPc}
    (free : s.mutexes id = none) (outside : s.pc id ≠ .inserting) (holds : pc.holds = true) :
    ((s.own id (some (.caller id))).goto id pc).Locks := by
  have outside' : pc ≠ .inserting := by
    rintro rfl
    cases holds
  refine ⟨fun other => ?_, locks.clearer, fun other owner => ?_, fun other => ?_⟩
  · by_cases same : other = id
    · subst same
      simpa [outside, outside'] using locks.inserter other
    · simpa [same] using locks.inserter other
  · by_cases same : other = id
    · subst same
      simpa [holds] using eq_comm
    · simpa [same] using locks.holder other owner
  · by_cases same : other = id
    · subst same
      simpa [free] using locks.held other
    · simpa [same] using locks.held other

/-- A call unlocks its controller. -/
theorem Locks.gives {s : SyncCalls Id} (locks : s.Locks) {id : Id} {pc : CallerPc}
    (owns : (s.pc id).holds = true) (outside : pc ≠ .inserting) (holds : pc.holds = false) :
    ((s.own id none).goto id pc).Locks := by
  have inside : s.pc id ≠ .inserting := by
    intro now
    rw [now] at owns
    cases owns
  have owned : s.mutexes id = some (.caller id) := (locks.holder id id).mpr ⟨rfl, owns⟩
  refine ⟨fun other => ?_, locks.clearer, fun other owner => ?_, fun other => ?_⟩
  · by_cases same : other = id
    · subst same
      simpa [inside, outside] using locks.inserter other
    · simpa [same] using locks.inserter other
  · by_cases same : other = id
    · subst same
      simp [holds]
    · simpa [same] using locks.holder other owner
  · by_cases same : other = id
    · subst same
      simpa [owned] using locks.held other
    · simpa [same] using locks.held other

/-- A call locks the table. -/
theorem Locks.enter {s : SyncCalls Id} (locks : s.Locks) {id : Id} (entering : s.pc id = .entering)
    (free : s.mutexRequests = none) :
    ({ s with mutexRequests := some (.caller id) }.goto id .inserting).Locks := by
  have nobody : ∀ other, s.pc other ≠ .inserting := fun other now => by
    simpa [free] using (locks.inserter other).mpr now
  refine ⟨fun other => ?_, ?_, fun other owner => ?_, locks.held⟩
  · by_cases same : other = id
    · simp [same]
    · simp [same, nobody other, Ne.symm same]
  · simpa [free] using locks.clearer
  · by_cases same : other = id
    · subst same
      simpa [entering, CallerPc.holds] using locks.holder other owner
    · simpa [same] using locks.holder other owner

/-- A call enters its controller into the table, and unlocks the table. -/
theorem Locks.insert {s : SyncCalls Id} (locks : s.Locks) {id : Id}
    (inserting : s.pc id = .inserting) (requests : List Id) :
    ({ s with requests, mutexRequests := none }.goto id .registered).Locks := by
  have owned := (locks.inserter id).mpr inserting
  refine ⟨fun other => ?_, ?_, fun other owner => ?_, locks.held⟩
  · by_cases same : other = id
    · simp [same]
    · have others := locks.inserter other
      simpa [owned, same, Ne.symm same] using others
  · simpa [owned] using locks.clearer
  · by_cases same : other = id
    · subst same
      simpa [inserting, CallerPc.holds] using locks.holder other owner
    · simpa [same] using locks.holder other owner

omit [DecidableEq Id] in
/-- The loop thread moves between two places that own the same. -/
theorem Locks.turns {s : SyncCalls Id} (locks : s.Locks) {loop : LoopPc Id}
    (clears : loop.clears = s.loop.clears) (held : loop.held = s.loop.held) :
    { s with loop }.Locks :=
  ⟨locks.inserter, by rw [clears]; exact locks.clearer, locks.holder,
    fun id => by rw [held]; exact locks.held id⟩

omit [DecidableEq Id] in
/-- The loop thread locks the table. -/
theorem Locks.seizes {s : SyncCalls Id} (locks : s.Locks) {loop : LoopPc Id}
    (free : s.mutexRequests = none) (clears : loop.clears = true)
    (held : loop.held = s.loop.held) : { s with mutexRequests := some .loop, loop }.Locks := by
  refine ⟨fun id => ?_, by simp [clears], locks.holder, fun id => ?_⟩
  · simpa [free] using locks.inserter id
  · rw [held]
    exact locks.held id

omit [DecidableEq Id] in
/-- The loop thread unlocks the table. -/
theorem Locks.frees {s : SyncCalls Id} (locks : s.Locks) {loop : LoopPc Id} (requests : List Id)
    (closed : Bool) (cleared : s.loop.clears = true) (clears : loop.clears = false)
    (held : loop.held = s.loop.held) :
    { s with requests, closed, mutexRequests := none, loop }.Locks := by
  have owned := locks.clearer.mpr cleared
  refine ⟨fun id => ?_, by simp [clears], locks.holder, fun id => ?_⟩
  · simpa [owned] using locks.inserter id
  · rw [held]
    exact locks.held id

/-- The loop thread locks a controller. -/
theorem Locks.hold {s : SyncCalls Id} (locks : s.Locks) {loop : LoopPc Id} {id : Id}
    (free : s.mutexes id = none) (clears : loop.clears = s.loop.clears) (idle : s.loop.held = none)
    (held : loop.held = some id) : { s.own id (some .loop) with loop }.Locks := by
  refine ⟨locks.inserter, by rw [clears]; exact locks.clearer, fun other owner => ?_,
    fun other => ?_⟩
  · by_cases same : other = id
    · subst same
      simpa [free] using locks.holder other owner
    · simpa [same] using locks.holder other owner
  · by_cases same : other = id
    · simp [same, held]
    · simpa [same, held, idle, Ne.symm same] using locks.held other

/-- The loop thread unlocks a controller. -/
theorem Locks.unhold {s : SyncCalls Id} (locks : s.Locks) {loop : LoopPc Id} {id : Id}
    (holds : s.loop.held = some id) (clears : loop.clears = s.loop.clears)
    (held : loop.held = none) : { s.own id none with loop }.Locks := by
  have owned := (locks.held id).mpr holds
  refine ⟨locks.inserter, by rw [clears]; exact locks.clearer, fun other owner => ?_,
    fun other => ?_⟩
  · by_cases same : other = id
    · subst same
      simpa [owned] using locks.holder other owner
    · simpa [same] using locks.holder other owner
  · by_cases same : other = id
    · simp [same, held]
    · simpa [same, held, holds, Ne.symm same] using locks.held other

/-- A completion is set with no mutex but that of the table. -/
theorem Locks.settle {s : SyncCalls Id} (locks : s.Locks) {id : Id} {completion : Settlement}
    {after : After Id} (clears : after.closes = s.loop.clears) (idle : s.loop.held = none) :
    (s.settle id completion after).Locks := by
  have turned : { s with loop := .notifying id completion after }.Locks :=
    locks.turns clears (by rw [idle]; rfl)
  exact ⟨turned.inserter, turned.clearer, turned.holder, turned.held⟩

/-- `notify_one` releases a call that owns nothing. -/
theorem Locks.signal {s : SyncCalls Id} (locks : s.Locks) (id : Id) (completion : Settlement) :
    (s.signal id completion).Locks := by
  by_cases sleeps : s.pc id = .sleeping
  · have moved := @Locks.moves _ _ _ locks id (.awake .notified) (by simp [sleeps]) (by simp)
      (by simp [sleeps, CallerPc.holds])
    have same : (s.signal id completion).pc = (s.goto id (.awake .notified)).pc := by
      simp [SyncCalls.signal, sleeps, goto]
    exact ⟨by rw [same]; exact moved.inserter, moved.clearer, by rw [same]; exact moved.holder,
      moved.held⟩
  · have same : (s.signal id completion).pc = s.pc := by simp [SyncCalls.signal, sleeps]
    exact ⟨by rw [same]; exact locks.inserter, locks.clearer, by rw [same]; exact locks.holder,
      locks.held⟩

/-- The loop thread goes on after a notification. -/
theorem Locks.proceed {s : SyncCalls Id} (locks : s.Locks) {after : After Id} (id : Id)
    (clears : s.loop.clears = after.closes) (held : s.loop.held = none) :
    (s.proceed id after).Locks := by
  rcases after with (_ | _) | rest
  · exact locks.turns (by rw [clears]; rfl) (by rw [held]; rfl)
  · exact (locks.modify _ _).turns (by rw [modify_loop, clears]; rfl)
      (by rw [modify_loop, held]; rfl)
  · exact locks.turns (by rw [clears]; rfl) (by rw [held]; rfl)

/-- Each step takes and gives back the mutex it should. -/
theorem Locks.step {s next : SyncCalls Id} {action : SyncAction Id} (locks : s.Locks)
    (taken : s.step action = some next) : next.Locks := by
  cases step_cases taken with
  | refused => exact locks
  | @call id response idle =>
      exact (locks.modify id _).moves (by simp [idle]) (by simp) (by simp [idle, CallerPc.holds])
  | @sends id accepted locked =>
      have sent : { s with sent := Function.update s.sent id true }.Locks :=
        ⟨locks.inserter, locks.clearer, locks.holder, locks.held⟩
      exact sent.moves (by simp [locked]) (by simp) (by simp [locked, CallerPc.holds])
  | fails locked =>
      exact locks.moves (by simp [locked]) (by simp) (by simp [locked, CallerPc.holds])
  | wakes sleeps =>
      exact locks.moves (by simp [sleeps]) (by simp) (by simp [sleeps, CallerPc.holds])
  | enter entering free => exact locks.enter entering free
  | insert inserting => exact locks.insert inserting _
  | lock registered free => exact locks.takes free (by simp [registered]) rfl
  | wait sent => exact locks.gives (by simp [sent, CallerPc.holds]) (by simp) rfl
  | resume awake free => exact locks.takes free (by simp [awake]) rfl
  | leave leaves =>
      refine locks.gives ?_ (by simp) rfl
      rcases leaves with unsent | ⟨wakeup, resumed⟩
      · simp [unsent, CallerPc.holds]
      · simp [resumed, CallerPc.holds]
  | response idle => exact locks.turns (by rw [idle]; rfl) (by rw [idle]; rfl)
  | stop => exact ⟨locks.inserter, locks.clearer, locks.holder, locks.held⟩
  | close idle => exact locks.turns (by rw [idle]; rfl) (by rw [idle]; rfl)
  | find finding free => exact locks.seizes free rfl (by rw [finding]; rfl)
  | erase removing =>
      exact locks.frees _ s.closed (by rw [removing]; rfl) rfl (by rw [removing]; rfl)
  | keep removing =>
      exact locks.frees s.requests s.closed (by rw [removing]; rfl) rfl (by rw [removing]; rfl)
  | miss removing =>
      exact locks.frees s.requests s.closed (by rw [removing]; rfl) rfl (by rw [removing]; rfl)
  | answer found => exact locks.settle (by rw [found]; rfl) (by rw [found]; rfl)
  | begin closing free => exact locks.seizes free rfl (by rw [closing]; rfl)
  | next clearing => exact locks.settle (by rw [clearing]; rfl) (by rw [clearing]; rfl)
  | clear clearing => exact locks.frees [] true (by rw [clearing]; rfl) rfl (by rw [clearing]; rfl)
  | hold notifying free =>
      exact locks.hold free (by rw [notifying]; rfl) (by rw [notifying]; rfl) rfl
  | unhold holding => exact locks.unhold (by rw [holding]; rfl) (by rw [holding]; rfl) rfl
  | @signal id completion after signalling =>
      exact (locks.signal id completion).proceed id (by rw [SyncCalls.signal, signalling]; rfl)
        (by rw [SyncCalls.signal, signalling]; rfl)

end SyncCalls

end Sdpf.Client
