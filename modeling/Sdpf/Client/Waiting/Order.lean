import Sdpf.Client.Waiting.Locks

/-!
# Order of a call and its completion

`Order` is what is known of each call, whatever the loop thread is about to do: a call that
has not sent yet is not completed, one that is completed has left the table, and one whose
completion has been signalled is not asleep. Here are the steps of a call, and those that
find it in the table.
-/

namespace Sdpf.Client

open Sdpf.Semantics Sdpf.Data Sdpf.Channel

variable {Id : Type}

namespace SyncCalls

variable [DecidableEq Id]

/-- What is known of the calls, whatever the loop thread is about to do with them. -/
structure Order (s : SyncCalls Id) : Prop where
  early : ∀ id, (s.pc id).early = true →
    id ∉ s.todo ∧ s.loop.completing ≠ some id ∧ s.notified id = none ∧ s.sent id = false ∧
      s.filled id = none
  fresh : ∀ id, s.pc id = .entering ∨ s.pc id = .inserting → (s.ctrls id).ec = 0
  sent : ∀ id, s.sent id = true → s.pc id = .sent ∨ (s.pc id).passed = true
  released : ∀ id, s.loop.released = some id ∨ s.notified id ≠ none →
    s.pc id ≠ .sent ∧ ((s.pc id).passed = true ∨ s.connected = false)
  awake : ∀ id, s.notified id ≠ none → s.pc id ≠ .sleeping
  woken : ∀ id, s.pc id = .awake .notified ∨ s.pc id = .resumed .notified → s.notified id ≠ none
  answering : ∀ id, s.loop.answering = some id → s.sent id = true
  down : s.loop.closes = true → s.connected = false
  nodup : s.todo.Nodup
  once : ∀ id, s.loop.completing = some id → id ∉ s.todo ∧ s.notified id = none
  blank : ∀ id, id ∈ s.todo → (s.ctrls id).ec = 0 ∧ s.notified id = none ∧ s.filled id = none
  found : ∀ id code body bnotify, s.loop = .found id code body bnotify →
    bnotify = false ∧ s.filled id = none
  ordinary : s.loop.marks = false
  settled : ∀ id completion,
    s.loop.bringing = some (id, completion) ∨ s.notified id = some completion →
      s.Settled id completion

/-- A step that only moves one call, to a place that agrees with what is known of it. -/
theorem Order.place {s : SyncCalls Id} (order : s.Order) {id : Id} {pc : CallerPc}
    (early : pc.early = true → (s.pc id).early = true)
    (fresh : pc = .entering ∨ pc = .inserting → (s.ctrls id).ec = 0)
    (sent : s.sent id = true → pc = .sent ∨ pc.passed = true)
    (released : s.loop.released = some id ∨ s.notified id ≠ none →
      pc ≠ .sent ∧ (pc.passed = true ∨ s.connected = false))
    (awake : s.notified id ≠ none → pc ≠ .sleeping)
    (woken : pc = .awake .notified ∨ pc = .resumed .notified → s.notified id ≠ none) :
    (s.goto id pc).Order :=
  { order with
    early := by
      intro other begins
      refine order.early other ?_
      by_cases same : other = id
      · subst same
        exact early (by simpa using begins)
      · simpa [same] using begins
    fresh := by
      intro other begins
      by_cases same : other = id
      · subst same
        exact fresh (by simpa using begins)
      · exact order.fresh other (by simpa [same] using begins)
    sent := by
      intro other requested
      by_cases same : other = id
      · subst same
        simpa using sent requested
      · simpa [same] using order.sent other requested
    released := by
      intro other brought
      by_cases same : other = id
      · subst same
        simpa using released brought
      · simpa [same] using order.released other brought
    awake := by
      intro other notified
      by_cases same : other = id
      · subst same
        simpa using awake notified
      · simpa [same] using order.awake other notified
    woken := by
      intro other woke
      by_cases same : other = id
      · subst same
        exact woken (by simpa using woke)
      · exact order.woken other (by simpa [same] using woke) }

/-- A step that only moves one call, and the mutexes. -/
theorem Order.moved {s : SyncCalls Id} (order : s.Order) {id : Id} {old pc : CallerPc}
    (here : s.pc id = old) (moves : old.Moves pc) (mutexRequests : Option (Party Id))
    (mutexes : Id → Option (Party Id)) :
    ({ s with mutexRequests, mutexes }.goto id pc).Order := by
  subst here
  have locked : { s with mutexRequests, mutexes }.Order := { order with }
  refine locked.place moves.early ?_ ?_ ?_ ?_ ?_
  · intro begins
    have into : pc = .inserting := by simpa [moves.entering] using begins
    exact order.fresh id (.inl (moves.inserting into))
  · exact fun requested => .inr (moves.passed (order.sent id requested))
  · intro brought
    have passed := (order.released id brought).2
    exact ⟨moves.sent, passed.imp_left fun before => moves.passed (.inr before)⟩
  · exact fun notified asleep => (order.released id (.inr notified)).1 (moves.sleeping asleep)
  · exact fun woke => order.woken id (.inl (moves.notified woke))

omit [DecidableEq Id] in
/-- A step that moves the loop thread, and leaves the table and the calls as they are. -/
theorem Order.turned {s : SyncCalls Id} (order : s.Order) {loop : LoopPc Id}
    (mutexRequests : Option (Party Id)) (mutexes : Id → Option (Party Id))
    (rest : loop.rest.getD s.requests = s.todo)
    (completing : ∀ id, loop.completing = some id → s.loop.completing = some id)
    (bringing : ∀ pair, loop.bringing = some pair → s.loop.bringing = some pair)
    (released : ∀ id, loop.released = some id →
      s.pc id ≠ .sent ∧ ((s.pc id).passed = true ∨ s.connected = false))
    (answering : ∀ id, loop.answering = some id → s.sent id = true)
    (closes : loop.closes = true → s.connected = false)
    (found : ∀ id code body bnotify, loop ≠ .found id code body bnotify)
    (marks : loop.marks = false) :
    { s with mutexRequests, mutexes, loop }.Order := by
  have table : { s with mutexRequests, mutexes, loop }.todo = s.todo := rest
  refine ⟨fun id begins => ?_, order.fresh, order.sent, fun id brought => ?_, order.awake,
    order.woken, answering, closes, ?_, fun id completes => ?_, fun id member => ?_, ?_, marks,
    fun id completion brought => ?_⟩
  · obtain ⟨absent, apart, quiet⟩ := order.early id begins
    exact ⟨table ▸ absent, fun same => apart (completing id same), quiet⟩
  · rcases brought with now | notified
    · exact released id now
    · exact order.released id (.inr notified)
  · rw [table]
    exact order.nodup
  · rw [table]
    exact order.once id (completing id completes)
  · rw [table] at member
    exact order.blank id member
  · intro id code body bnotify same
    exact absurd same (found id code body bnotify)
  · exact order.settled id completion (brought.imp_left (bringing _))

omit [DecidableEq Id] in
/-- Nothing has come of a call that is early. -/
theorem Order.unbrought {s : SyncCalls Id} (order : s.Order) {id : Id}
    (early : (s.pc id).early = true) : ¬ (s.loop.released = some id ∨ s.notified id ≠ none) := by
  obtain ⟨_, apart, quiet, _⟩ := order.early id early
  rintro (now | notified)
  · exact apart (LoopPc.completing_of_released now)
  · exact notified quiet

/-- A call starts with its error code at 0. -/
theorem Order.call {s : SyncCalls Id} (order : s.Order) {id : Id} (idle : s.pc id = .idle)
    (response : Option RpcMessage) :
    ((s.modify id fun ctrl => { ctrl with ec := 0, resp := response }).goto id
      .entering).Order := by
  have early : (s.pc id).early = true := by rw [idle]; rfl
  obtain ⟨absent, apart, quiet, unsent, _⟩ := order.early id early
  have reset : (s.modify id fun ctrl => { ctrl with ec := 0, resp := response }).Order :=
    { order with
      fresh := by
        intro other begins
        by_cases same : other = id
        · simp [same]
        · simpa [same] using order.fresh other begins
      blank := by
        intro other member
        have ne : other ≠ id := fun same => absent (same ▸ member)
        simpa [ne] using order.blank other member
      settled := by
        intro other completion brought
        have ne : other ≠ id := by
          rintro rfl
          rcases brought with bringing | notified
          · exact apart (LoopPc.completing_of_bringing bringing)
          · exact absurd (quiet.symm.trans notified) (by simp)
        simpa [Settled, ne] using order.settled other completion brought }
  refine reset.place (fun _ => early) (fun _ => by simp) ?_ ?_ (fun _ => by simp) (by simp)
  · exact fun requested => absurd (unsent.symm.trans requested) (by simp)
  · exact fun brought => absurd brought (order.unbrought early)

/-- A request is sent while the connection is up. -/
theorem Order.sends {s : SyncCalls Id} (order : s.Order) {id : Id} (locked : s.pc id = .locked)
    (up : s.connected = true) :
    ({ s with sent := Function.update s.sent id true }.goto id .sent).Order := by
  have placed : (s.goto id .sent).Order := by
    refine order.place (by simp [CallerPc.early]) (by simp) (fun _ => .inl rfl) ?_
      (fun _ => by simp) (by simp)
    -- nothing comes for a call that has not passed, while the connection is up
    intro brought
    have before := order.released id brought
    simp [locked, up, CallerPc.passed] at before
  exact { placed with
    early := by
      intro other begins
      obtain ⟨absent, apart, quiet, unsent, unfilled⟩ := placed.early other begins
      have ne : other ≠ id := by
        rintro rfl
        simp [CallerPc.early] at begins
      exact ⟨absent, apart, quiet, by simpa [ne] using unsent, unfilled⟩
    sent := by
      intro other requested
      by_cases same : other = id
      · simp [same]
      · exact placed.sent other (by simpa [same] using requested)
    answering := by
      intro other answers
      by_cases same : other = id
      · simp [same]
      · simpa [same] using order.answering other answers }

/-- A call enters its controller into the table, which nobody is clearing. -/
theorem Order.insert {s : SyncCalls Id} (order : s.Order) {id : Id}
    (inserting : s.pc id = .inserting) (idle : s.loop.rest = none) :
    ({ s with requests := id :: s.requests, mutexRequests := none }.goto id .registered).Order := by
  have early : (s.pc id).early = true := by rw [inserting]; rfl
  obtain ⟨absent, apart, quiet, unsent, unfilled⟩ := order.early id early
  have placed : (s.goto id .registered).Order := by
    refine order.place (by simp [CallerPc.early]) (by simp) ?_ ?_ (fun _ => by simp) (by simp)
    · exact fun requested => absurd (unsent.symm.trans requested) (by simp)
    · exact fun brought => absurd brought (order.unbrought early)
  have table : ({ s with requests := id :: s.requests, mutexRequests := none }.goto id
      .registered).todo = id :: s.todo := by
    simp [todo, idle]
  exact { placed with
    early := by
      intro other begins
      have ne : other ≠ id := by
        rintro rfl
        simp [CallerPc.early] at begins
      obtain ⟨missing, known⟩ := order.early other (by simpa [ne] using begins)
      exact ⟨by simp [table, ne, missing], known⟩
    nodup := by
      rw [table]
      exact List.nodup_cons.mpr ⟨absent, order.nodup⟩
    once := by
      intro other completes
      obtain ⟨missing, silent⟩ := order.once other completes
      have ne : other ≠ id := by
        rintro rfl
        exact apart completes
      exact ⟨by simp [table, ne, missing], silent⟩
    blank := by
      intro other member
      rw [table] at member
      rcases List.mem_cons.mp member with rfl | waits
      · exact ⟨order.fresh other (.inr inserting), quiet, unfilled⟩
      · exact order.blank other waits }

omit [DecidableEq Id] in
/-- The connection goes down. -/
theorem Order.stop {s : SyncCalls Id} (order : s.Order) : { s with connected := false }.Order := by
  obtain ⟨early, fresh, sent, released, awake, woken, answering, down, nodup, once, blank, found,
    ordinary, settled⟩ := order
  refine ⟨early, fresh, sent, ?_, awake, woken, answering, fun _ => rfl, nodup, once, blank,
    found, ordinary, settled⟩
  exact fun id brought => ⟨(released id brought).1, .inr rfl⟩

/-- The request that is answered is taken out of the table. -/
theorem Order.erase {s : SyncCalls Id} (order : s.Order) {id : Id} {code : Int32}
    {body : List UInt8} (removing : s.loop = .removing id code body) (stored : id ∈ s.requests) :
    { s with
      requests := s.requests.erase id
      mutexRequests := none
      loop := .found id code body false }.Order := by
  have table : s.todo = s.requests := by simp [todo, removing, LoopPc.rest]
  have waits : id ∈ s.todo := table ▸ stored
  have left : ∀ other, other ∈ s.requests.erase id → other ∈ s.todo := fun other member =>
    table ▸ List.mem_of_mem_erase member
  obtain ⟨_, quiet, unfilled⟩ := order.blank id waits
  exact { order with
    early := by
      intro other begins
      obtain ⟨absent, _, silent, unsent, empty⟩ := order.early other begins
      have ne : id ≠ other := by
        rintro rfl
        exact absent waits
      exact ⟨fun member => absent (left other member), by simpa [LoopPc.completing] using ne,
        silent, unsent, empty⟩
    released := fun other brought =>
      order.released other (brought.imp_left (by simp [LoopPc.released]))
    answering := by
      intro other now
      cases now
      exact order.answering id (by rw [removing]; rfl)
    down := by simp [LoopPc.closes]
    nodup := (table ▸ order.nodup).erase id
    once := by
      intro other now
      cases now
      exact ⟨(table ▸ order.nodup).not_mem_erase, quiet⟩
    blank := fun other member => order.blank other (left other member)
    found := by
      intro other code body bnotify now
      cases now
      exact ⟨rfl, unfilled⟩
    ordinary := rfl
    settled := fun other completion brought =>
      order.settled other completion (brought.imp_left (by simp [LoopPc.bringing])) }

end SyncCalls

end Sdpf.Client
