import Sdpf.Client.Waiting.Completing
import Mathlib.Logic.Relation

/-!
# Waiting for a completion

The wait of a synchronous call has no predicate, and still no completion is missed: in
every state that is reached no call sleeps for which `notify_one` has been issued, a call
that was woken so finds what its completion left, and of the threads that wait for a mutex
none waits in vain (`completion_reaches`).
-/

namespace Sdpf.Client

open Sdpf.Semantics Sdpf.Data Sdpf.Channel

variable {Id : Type}

namespace SyncCalls

variable [DecidableEq Id]

omit [DecidableEq Id] in
/-- Before the first call all mutexes are free. -/
theorem Locks.fresh (ctrls : Id → RpcController) : (fresh ctrls).Locks := by
  constructor <;> simp [SyncCalls.fresh, LoopPc.clears, LoopPc.held, CallerPc.holds]

omit [DecidableEq Id] in
/-- Before the first call nothing is known. -/
theorem Order.begun (ctrls : Id → RpcController) : (SyncCalls.fresh ctrls).Order := by
  constructor <;> simp [SyncCalls.fresh, todo, LoopPc.rest, LoopPc.completing, LoopPc.released,
    LoopPc.answering, LoopPc.closes, LoopPc.marks, LoopPc.bringing]

/-- Both hold in every state a channel can be in. -/
theorem ordered_of_reachable {s : SyncCalls Id} (reachable : syncMachine.Reachable s) :
    s.Locks ∧ s.Order := by
  refine reachable.invariant (fun s => s.Locks ∧ s.Order) ?_ ?_
  · rintro start ⟨ctrls, rfl⟩
    exact ⟨.fresh ctrls, .begun ctrls⟩
  · rintro state action next ⟨locks, order⟩ taken
    exact ⟨locks.step taken, order.step locks taken⟩

/-- The owner of the mutex a thread is in front of. -/
def awaited (s : SyncCalls Id) : Party Id → Option (Party Id)
  | .caller id =>
      match s.pc id with
      | .entering => s.mutexRequests
      | .registered | .awake _ => s.mutexes id
      | _ => none
  | .loop =>
      match s.loop with
      | .finding .. | .closing => s.mutexRequests
      | .notifying id .. => s.mutexes id
      | _ => none

/-- One thread waits for a mutex another one owns. -/
def Waits (s : SyncCalls Id) (waiter owner : Party Id) : Prop :=
  s.awaited waiter = some owner

/-- A thread that waits for no mutex, and has something to do. -/
def Ready (s : SyncCalls Id) (party : Party Id) : Prop :=
  s.awaited party = none ∧ ∃ action, action.party = party ∧ (s.step action).isSome = true

/-- A call that owns a mutex is not in front of another one. -/
theorem ready_of_owner {s : SyncCalls Id} {id : Id}
    (owns : s.pc id = .inserting ∨ (s.pc id).holds = true) : s.Ready (.caller id) := by
  cases here : s.pc id with
  | locked =>
      refine ⟨by simp [awaited, here], .send id true, rfl, ?_⟩
      simp [SyncCalls.step, here]
  | inserting | sent | unsent | resumed =>
      refine ⟨by simp [awaited, here], .go id, rfl, ?_⟩
      simp [SyncCalls.step, go, here]
  | _ => simp [here, CallerPc.holds] at owns

omit [DecidableEq Id] in
/-- Who owns the mutex a thread waits for. -/
theorem Locks.owner {s : SyncCalls Id} (locks : s.Locks) {waiter owner : Party Id}
    (waits : s.Waits waiter owner) :
    (∃ id, owner = .caller id ∧ (s.pc id = .inserting ∨ (s.pc id).holds = true)) ∨
      owner = .loop ∧ (s.loop.clears = true ∨ s.loop.held ≠ none) := by
  obtain ⟨inserter, clearer, holder, held⟩ := locks
  have owned : s.mutexRequests = some owner ∨ ∃ id, s.mutexes id = some owner := by
    unfold Waits awaited at waits
    split at waits
    · split at waits
      · exact .inl waits
      · exact .inr ⟨_, waits⟩
      · exact .inr ⟨_, waits⟩
      · cases waits
    · split at waits
      · exact .inl waits
      · exact .inl waits
      · exact .inr ⟨_, waits⟩
      · cases waits
  cases owner with
  | caller other =>
      refine .inl ⟨other, rfl, ?_⟩
      rcases owned with table | ⟨id, mutex⟩
      · exact .inl ((inserter other).mp table)
      · obtain ⟨rfl, holds⟩ := (holder id other).mp mutex
        exact .inr holds
  | loop =>
      refine .inr ⟨rfl, ?_⟩
      rcases owned with table | ⟨id, mutex⟩
      · exact .inl (clearer.mp table)
      · exact .inr (by simp [(held id).mp mutex])

/-- The loop thread, where it owns a mutex, is ready, or waits for a call that is. -/
theorem Locks.loop_ready {s : SyncCalls Id} (locks : s.Locks)
    (owns : s.loop.clears = true ∨ s.loop.held ≠ none) :
    s.Ready .loop ∨ ∃ id, s.Waits .loop (.caller id) ∧ s.Ready (.caller id) := by
  cases here : s.loop with
  | notifying id completion after =>
      cases mutex : s.mutexes id with
      | none =>
          refine .inl ⟨by simp [awaited, here, mutex], .turn, rfl, ?_⟩
          simp [SyncCalls.step, turn, here, mutex]
      | some owner =>
          cases owner with
          | caller other =>
              obtain ⟨rfl, holds⟩ := (locks.holder id other).mp mutex
              exact .inr ⟨other, by simp [Waits, awaited, here, mutex], ready_of_owner (.inr holds)⟩
          | loop =>
              have now := (locks.held id).mp mutex
              simp [here, LoopPc.held] at now
  | clearing rest =>
      refine .inl ⟨by simp [awaited, here], .turn, rfl, ?_⟩
      cases rest <;> simp [SyncCalls.step, turn, here]
  | removing | holding | signalling =>
      refine .inl ⟨by simp [awaited, here], .turn, rfl, ?_⟩
      simp [SyncCalls.step, turn, here]
  | _ => simp [here, LoopPc.clears, LoopPc.held] at owns

/-- Nobody waits for a mutex in vain: the threads that have to go first lead to one that is
ready. -/
theorem Locks.no_deadlock {s : SyncCalls Id} (locks : s.Locks) {waiter owner : Party Id}
    (waits : s.Waits waiter owner) :
    ∃ party, Relation.ReflTransGen s.Waits owner party ∧ s.Ready party := by
  rcases locks.owner waits with ⟨id, rfl, owns⟩ | ⟨rfl, owns⟩
  · exact ⟨_, .refl, ready_of_owner owns⟩
  · rcases locks.loop_ready owns with ready | ⟨id, next, ready⟩
    · exact ⟨_, .refl, ready⟩
    · exact ⟨_, .single next, ready⟩

/-- No synchronous call misses its completion: none sleeps once `notify_one` has been
issued for it, a call that sleeps then is woken, a call that was woken so finds the error
code and the response of its completion, and no two threads wait for each other. -/
theorem completion_reaches {s : SyncCalls Id} (reachable : syncMachine.Reachable s) :
    (∀ id, s.notified id ≠ none → s.pc id ≠ .sleeping) ∧
    (∀ id completion after, s.loop = .signalling id completion after → s.pc id = .sleeping →
      ∃ next, s.step .turn = some next ∧ next.pc id = .awake .notified ∧
        next.notified id = some completion) ∧
    (∀ id, s.pc id = .awake .notified ∨ s.pc id = .resumed .notified →
      ∃ completion, s.notified id = some completion) ∧
    (∀ id completion, s.notified id = some completion → s.Settled id completion) ∧
    ∀ waiter owner, s.Waits waiter owner →
      ∃ party, Relation.ReflTransGen s.Waits owner party ∧ s.Ready party := by
  obtain ⟨locks, order⟩ := ordered_of_reachable reachable
  refine ⟨order.awake, ?_, ?_, fun id completion notified => ?_, fun _ _ => locks.no_deadlock⟩
  · intro id completion after signalling sleeps
    refine ⟨(s.signal id completion).proceed id after, ?_, ?_, ?_⟩
    · simp [SyncCalls.step, turn, signalling]
    · simp [sleeps]
    · simp
  · exact fun id woken => Option.ne_none_iff_exists'.mp (order.woken id woken)
  · exact order.settled id completion (.inr notified)

/-- A call that is answered while it sleeps. -/
theorem completion_reaches_answered :
    ∃ s : SyncCalls Nat, syncMachine.Reachable s ∧ s.pc 1 = .awake .notified ∧
      s.notified 1 = some (.response 7 [192]) ∧ s.Settled 1 (.response 7 [192]) := by
  obtain ⟨s, runs, seen⟩ := @Machine.Runs.of_map _ _ syncMachine _
    (fun s : SyncCalls Nat => (s.pc 1, s.notified 1))
    (fresh fun _ => ⟨none, false, 0, CStr.empty⟩)
    [.call 1 (some (.byte 7)), .go 1, .go 1, .go 1, .send 1 true, .go 1, .response 1 7 [192],
      .turn, .turn, .turn, .turn, .turn, .turn]
    (.awake .notified, some (.response 7 [192])) (by decide +kernel)
  simp only [Prod.mk.injEq] at seen
  have reachable : syncMachine.Reachable s := ⟨_, _, ⟨_, rfl⟩, runs⟩
  exact ⟨s, reachable, seen.1, seen.2, (completion_reaches reachable).2.2.2.1 _ _ seen.2⟩

end SyncCalls

end Sdpf.Client
