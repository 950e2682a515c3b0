import Sdpf.Client.Waiting.Order

/-!
# Completion of a call

The loop thread leaves its completion in the controller, locks it and issues `notify_one`,
for a response or for every call that is left when the connection closes. With these steps
every step keeps the `Order` of calls and completions.
-/

namespace Sdpf.Client

open Sdpf.Semantics Sdpf.Data Sdpf.Channel

variable {Id : Type}

namespace SyncCalls

variable [DecidableEq Id]

/-- A call that has been taken out of the table is completed, in `process_response` or in
`on_close`. -/
theorem Order.settle {s : SyncCalls Id} (order : s.Order) {id : Id} {completion : Settlement}
    {after : After Id} (remaining : after.rest.getD s.requests = s.todo.erase id)
    (early : (s.pc id).early = false) (quiet : s.notified id = none) (unfilled : s.filled id = none)
    (answering : after.closes = false → s.sent id = true)
    (closes : after.closes = true → s.connected = false) (unmarked : after.marks = false) :
    (s.settle id completion after).Order := by
  have table : (s.settle id completion after).todo = s.todo.erase id := remaining
  have left : ∀ other, other ∈ s.todo.erase id → other ≠ id ∧ other ∈ s.todo := fun _ member =>
    (order.nodup.mem_erase_iff).mp member
  refine ⟨fun other begins => ?_, fun other begins => ?_, order.sent, fun other brought => ?_,
    order.awake, order.woken, ?_, closes, ?_, ?_, fun other member => ?_, ?_, unmarked, ?_⟩
  · obtain ⟨absent, _, silent, unsent, empty⟩ := order.early other begins
    have ne : other ≠ id := by
      rintro rfl
      exact absurd (early.symm.trans begins) (by simp)
    refine ⟨fun member => absent (left _ (table ▸ member)).2, ?_, silent, unsent, ?_⟩
    · simpa [LoopPc.completing] using Ne.symm ne
    · simpa [ne] using empty
  · have ne : other ≠ id := by
      rintro rfl
      rcases begins with now | now <;> simp_all [CallerPc.early]
    simpa [ne] using order.fresh other begins
  · exact order.released other (brought.imp_left (by simp [LoopPc.released]))
  · intro other now
    simp only [settle_loop, LoopPc.answering] at now
    split_ifs at now with last
    cases now
    exact answering (by simpa using last)
  · rw [table]
    exact order.nodup.erase id
  · intro other now
    cases now
    rw [table]
    exact ⟨order.nodup.not_mem_erase, quiet⟩
  · obtain ⟨ne, member⟩ := left _ (table ▸ member)
    simpa [ne] using order.blank other member
  · intro other code body bnotify now
    cases now
  · intro other brought now
    by_cases same : other = id
    · subst same
      have which : completion = brought := by
        rcases now with now | now
        · cases now
          rfl
        · exact absurd (quiet.symm.trans now) (by simp)
      subst which
      simp [Settled, unfilled]
    · have known := order.settled other brought
        (.inr (now.resolve_left (by simp [LoopPc.bringing, Ne.symm same])))
      simpa [Settled, same] using known

omit [DecidableEq Id] in
/-- The table has been cleared, with nothing left to complete. -/
theorem Order.clear {s : SyncCalls Id} (order : s.Order) :
    { s with requests := [], mutexRequests := none, closed := true, loop := .idle }.Order :=
  { order with
    early := by
      intro other begins
      obtain ⟨_, _, silent, unsent, empty⟩ := order.early other begins
      exact ⟨List.not_mem_nil, by simp [LoopPc.completing], silent, unsent, empty⟩
    released := fun other brought =>
      order.released other (brought.imp_left (by simp [LoopPc.released]))
    answering := by simp [LoopPc.answering]
    down := by simp [LoopPc.closes]
    nodup := List.nodup_nil
    once := by simp [LoopPc.completing]
    blank := fun other member => absurd member List.not_mem_nil
    found := by simp
    ordinary := rfl
    settled := fun other completion brought =>
      order.settled other completion (brought.imp_left (by simp [LoopPc.bringing])) }

/-- A completion that is set is signalled, and nobody is at it any more. -/
theorem Order.notify {s : SyncCalls Id} (order : s.Order) {id : Id} {completion : Settlement}
    (late : (s.pc id).early = false) (absent : id ∉ s.todo) (apart : s.loop.completing ≠ some id)
    (released : s.pc id ≠ .sent ∧ ((s.pc id).passed = true ∨ s.connected = false))
    (settled : s.Settled id completion) : (s.signal id completion).Order := by
  -- the call is where it was, or it has been released
  have place : (s.signal id completion).pc id = s.pc id ∧ s.pc id ≠ .sleeping ∨
      (s.signal id completion).pc id = .awake .notified := by
    by_cases sleeps : s.pc id = .sleeping
    · exact .inr (by simp [sleeps])
    · exact .inl ⟨by simp [sleeps], sleeps⟩
  have later : ((s.signal id completion).pc id).early = false := by
    rcases place with ⟨stays, _⟩ | woken
    · rwa [stays]
    · rw [woken]
      rfl
  exact { order with
    early := by
      intro other begins
      have ne : other ≠ id := by
        rintro rfl
        exact absurd (later.symm.trans begins) (by simp)
      simpa [ne] using order.early other (by simpa [ne] using begins)
    fresh := by
      intro other begins
      have ne : other ≠ id := by
        rintro rfl
        rcases begins with now | now
        · rw [now] at later
          cases later
        · rw [now] at later
          cases later
      exact order.fresh other (by simpa [ne] using begins)
    sent := by
      intro other requested
      have before := order.sent other requested
      by_cases same : other = id
      · subst same
        rcases place with ⟨stays, _⟩ | woken
        · rwa [stays]
        · rw [woken]
          exact .inr rfl
      · simpa [same] using before
    released := by
      intro other brought
      by_cases same : other = id
      · subst same
        rcases place with ⟨stays, _⟩ | woken
        · rwa [stays]
        · rw [woken]
          exact ⟨by simp, .inl rfl⟩
      · simpa [same] using order.released other (by simpa [same] using brought)
    awake := by
      intro other notified
      by_cases same : other = id
      · subst same
        rcases place with ⟨stays, awake⟩ | woken
        · rwa [stays]
        · rw [woken]
          simp
      · simpa [same] using order.awake other (by simpa [same] using notified)
    woken := by
      intro other woke
      by_cases same : other = id
      · simp [same]
      · simpa [same] using order.woken other (by simpa [same] using woke)
    once := by
      intro other completes
      have ne : other ≠ id := by
        rintro rfl
        exact apart completes
      simpa [ne] using order.once other completes
    blank := by
      intro other member
      have ne : other ≠ id := fun same => absent (same ▸ member)
      simpa [ne] using order.blank other member
    settled := by
      intro other brought now
      by_cases same : other = id
      · subst same
        rcases now with bringing | notified
        · exact absurd (LoopPc.completing_of_bringing bringing) apart
        · have which : completion = brought := by simpa using notified
          exact which ▸ settled
      · exact order.settled other brought (by simpa [same] using now) }

/-- The completion of a call is signalled. -/
theorem Order.signal {s : SyncCalls Id} (order : s.Order) {id : Id} {completion : Settlement}
    {after : After Id} (signalling : s.loop = .signalling id completion after) :
    ((s.signal id completion).proceed id after).Order := by
  have current : s.loop.completing = some id := by rw [signalling]; rfl
  have unmarked : after.marks = false := by simpa [signalling, LoopPc.marks] using order.ordinary
  -- an ordinary call is not marked afterwards, so the loop thread might as well go on first
  have swap : (s.signal id completion).proceed id after =
      { s with loop := resumption after }.signal id completion := by
    rcases after with (_ | _) | rest
    · rfl
    · cases unmarked
    · rfl
  have table : (resumption after).rest.getD s.requests = s.todo := by
    cases after <;> simp [todo, signalling, resumption, LoopPc.rest, After.rest]
  have resumed : { s with loop := resumption after }.Order := by
    refine order.turned s.mutexRequests s.mutexes table (by simp) (by simp) (by simp) (by simp) ?_
      ?_ (by simp)
    · rw [resumption_closes]
      simpa [signalling, LoopPc.closes] using order.down
    · cases after <;> simp [resumption]
  rw [swap]
  refine resumed.notify ?_ ?_ (by simp) (order.released id (.inl (by rw [signalling]; rfl)))
    (order.settled id completion (.inl (by rw [signalling]; rfl)))
  · exact Bool.eq_false_iff.mpr fun early => (order.early id early).2.1 current
  · rw [todo, table]
    exact (order.once id current).1

/-- A step keeps what is known of the calls. -/
theorem Order.step {s next : SyncCalls Id} {action : SyncAction Id} (order : s.Order)
    (locks : s.Locks) (taken : s.step action = some next) : next.Order := by
  cases step_cases taken with
  | refused => exact order
  | call idle => exact order.call idle _
  | sends locked up => exact order.sends locked up
  | fails locked => exact order.moved locked .fails _ _
  | wakes sleeps alone => exact order.moved sleeps (.wakes alone) _ _
  | enter entering => exact order.moved entering .enters _ _
  | insert inserting => exact order.insert inserting (locks.rest_of_inserting inserting)
  | lock registered => exact order.moved registered .locks _ _
  | wait sends => exact order.moved sends .waits _ _
  | resume awakes => exact order.moved awakes .resumes _ _
  | leave leaves =>
      rcases leaves with unsent | ⟨wakeup, resumed⟩
      · exact order.moved unsent .gives _ _
      · exact order.moved resumed .leaves _ _
  | response idle up sends =>
      exact order.turned s.mutexRequests s.mutexes (by simp [todo, idle, LoopPc.rest])
        (by simp [LoopPc.completing]) (by simp [LoopPc.bringing]) (by simp [LoopPc.released])
        (by simpa [LoopPc.answering] using sends) (by simp [LoopPc.closes]) (by simp) rfl
  | stop => exact order.stop
  | close idle down =>
      exact order.turned s.mutexRequests s.mutexes (by simp [todo, idle, LoopPc.rest])
        (by simp [LoopPc.completing]) (by simp [LoopPc.bringing]) (by simp [LoopPc.released])
        (by simp [LoopPc.answering]) (fun _ => down) (by simp) rfl
  | find finding =>
      exact order.turned (some .loop) s.mutexes (by simp [todo, finding, LoopPc.rest])
        (by simp [LoopPc.completing]) (by simp [LoopPc.bringing]) (by simp [LoopPc.released])
        (by simpa [finding, LoopPc.answering] using order.answering) (by simp [LoopPc.closes])
        (by simp) rfl
  | erase removing stored => exact order.erase removing stored
  | @keep id code body removing stored marked =>
      have waits : id ∈ s.todo := by simpa [todo, removing, LoopPc.rest] using stored
      exact absurd (order.blank id waits).1 marked
  | miss removing =>
      exact order.turned none s.mutexes (by simp [todo, removing, LoopPc.rest])
        (by simp [LoopPc.completing]) (by simp [LoopPc.bringing]) (by simp [LoopPc.released])
        (by simp [LoopPc.answering]) (by simp [LoopPc.closes]) (by simp) rfl
  | @answer id code body bnotify here =>
      obtain ⟨rfl, unfilled⟩ := order.found id code body bnotify here
      have current : s.loop.completing = some id := by rw [here]; rfl
      obtain ⟨absent, quiet⟩ := order.once id current
      refine order.settle ?_ ?_ quiet unfilled (fun _ => order.answering id ?_)
        (by simp [After.closes]) rfl
      · rw [List.erase_of_not_mem absent]
        simp [todo, here, LoopPc.rest, After.rest]
      · exact Bool.eq_false_iff.mpr fun early => (order.early id early).2.1 current
      · rw [here]
        rfl
  | begin closing =>
      exact order.turned (some .loop) s.mutexes (by simp [todo, closing, LoopPc.rest])
        (by simp [LoopPc.completing]) (by simp [LoopPc.bringing]) (by simp [LoopPc.released])
        (by simp [LoopPc.answering]) (fun _ => order.down (by rw [closing]; rfl)) (by simp) rfl
  | @next id rest clearing =>
      have table : s.todo = id :: rest := by simp [todo, clearing, LoopPc.rest]
      have waits : id ∈ s.todo := by simp [table]
      obtain ⟨zero, quiet, unfilled⟩ := order.blank id waits
      refine order.settle ?_ ?_ quiet unfilled (by simp [After.closes])
        (fun _ => order.down (by rw [clearing]; rfl)) rfl
      · simp [table, After.rest]
      · exact Bool.eq_false_iff.mpr fun early => (order.early id early).1 waits
  | clear => exact order.clear
  | @hold id completion after notifying free =>
      have apart := locks.apart (.inl free)
      refine order.turned s.mutexRequests _ (by simp [todo, notifying, LoopPc.rest])
        (by simp [notifying, LoopPc.completing]) (by simp [notifying, LoopPc.bringing]) ?_
        (by simpa [notifying, LoopPc.answering] using order.answering)
        (by simpa [notifying, LoopPc.closes] using order.down) (by simp)
        (by simpa [notifying, LoopPc.marks] using order.ordinary)
      intro other now
      cases now
      have unsent : s.pc id ≠ .sent := fun sends => by simp [sends, CallerPc.holds] at apart
      refine ⟨unsent, ?_⟩
      -- an answer is for a request that was sent, and `on_close` runs when the connection is down
      cases closes : after.closes with
      | true => exact .inr (order.down (by simpa [notifying, LoopPc.closes] using closes))
      | false =>
          have requested := order.answering id (by simp [notifying, LoopPc.answering, closes])
          exact .inl ((order.sent id requested).resolve_left unsent)
  | @unhold id completion after holding =>
      exact order.turned s.mutexRequests _ (by simp [todo, holding, LoopPc.rest])
        (by simp [holding, LoopPc.completing]) (by simp [holding, LoopPc.bringing])
        (fun other same => order.released other (.inl (by rw [holding]; exact same)))
        (by simpa [holding, LoopPc.answering] using order.answering)
        (by simpa [holding, LoopPc.closes] using order.down) (by simp)
        (by simpa [holding, LoopPc.marks] using order.ordinary)
  | signal signalling => exact order.signal signalling

end SyncCalls

end Sdpf.Client
