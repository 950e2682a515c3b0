import Sdpf.Client.Tracking

/-!
# Calls whose answers are outstanding

As long as no id is registered while it is in use, an accepted call has been completed,
is being completed, or has an entry in the table: nothing but its own answer or a close
takes it out.
-/

namespace Sdpf.Client

open Sdpf.Data Sdpf.Channel Sdpf.Semantics

/-- The call has entered the table and has not returned. -/
def Pc.InFlight (pc : Pc) : Prop := pc = .registered ∨ pc = .failed ∨ pc = .reset

/-- A call in flight has been registered. -/
theorem Pc.InFlight.registered {pc : Pc} (inFlight : pc.InFlight) : ¬ pc.Unregistered := by
  rcases inFlight with rfl | rfl | rfl <;> simp [Unregistered]

namespace World

/-- A call is registered under an id that neither the table nor a call under way uses. -/
def Unused (w : World) : Action → Prop
  | .register n => ∀ id, w.drawn n = some id →
      id ∉ w.ch.requests ∧ ∀ m, m ≠ n → (w.pc m).InFlight → w.drawn m ≠ some id
  | _ => True

/-- The done callback of the call has been run, or is about to be. -/
def Served (w : World) (n : Nat) : Prop := w.Fired n ∨ w.Completing n

/-- Accepted calls that have not been served are in the table. -/
structure Outstanding (calls : Nat → Call) (w : World) : Prop where
  kept : ∀ n, w.Accepted n → w.Served n ∨
    ∃ id ∈ w.ch.requests, w.drawn n = some id ∧ w.owner id = n
  own : ∀ n id, (w.pc n).InFlight → w.drawn n = some id → id ∈ w.ch.requests → w.owner id = n
  entry : ∀ id ctrl, w.ch.requests.lookup id = some ctrl → ∃ n, ctrl = (calls n).ctrl
  answer : ∀ answer, w.answering = some answer → ∃ n, answer.ctrl = (calls n).ctrl

variable {calls : Nat → Call} {w next : World}

/-- Before the first call nothing is outstanding. -/
theorem Outstanding.of_initial (initial : w.Initial) : w.Outstanding calls := by
  refine ⟨?_, ?_, ?_, ?_⟩
  · intro n accepted
    exact absurd (.inl (initial.pc n)) accepted.registered
  · intro n id inFlight
    exact absurd (.inl (initial.pc n)) inFlight.registered
  · intro id ctrl stored
    simp [initial.requests] at stored
  · intro answer now
    simp [answering, initial.phase] at now

/-- A step that leaves the table alone. -/
theorem Outstanding.frame (outstanding : w.Outstanding calls)
    (accepted : ∀ n, next.Accepted n → w.Accepted n)
    (inFlight : ∀ n, (next.pc n).InFlight → (w.pc n).InFlight)
    (drawn : ∀ n, ¬ (w.pc n).Unregistered → next.drawn n = w.drawn n)
    (owner : next.owner = w.owner) (requests : next.ch.requests = w.ch.requests)
    (served : ∀ n, w.Served n → next.Served n)
    (answer : ∀ answer, next.answering = some answer → w.answering = some answer) :
    next.Outstanding calls := by
  refine ⟨?_, ?_, ?_, ?_⟩
  · intro n now
    have before := accepted n now
    rw [drawn n before.registered, owner, requests]
    exact (outstanding.kept n before).imp_left (served n)
  · intro n id now
    have before := inFlight n now
    rw [drawn n before.registered, owner, requests]
    exact outstanding.own n id before
  · rw [requests]
    exact outstanding.entry
  · exact fun a now => outstanding.answer a (answer a now)

/-- A step of a call that leaves the table alone. -/
theorem Outstanding.setPc {n : Nat} {pc : Pc} (outstanding : w.Outstanding calls)
    (accepted : pc = .registered ∨ pc = .returned 0 → w.Accepted n)
    (inFlight : pc.InFlight → (w.pc n).InFlight) : (w.setPc n pc).Outstanding calls := by
  refine outstanding.frame ?_ ?_ (fun _ _ => rfl) rfl rfl (fun _ served => served)
    (fun _ now => now)
  · intro m now
    by_cases same : m = n
    · subst same
      exact accepted (by simpa [Accepted, World.setPc] using now)
    · simpa [Accepted, World.setPc, same] using now
  · intro m now
    by_cases same : m = n
    · subst same
      exact inFlight (by simpa [World.setPc] using now)
    · simpa [World.setPc, same] using now

/-- A call enters the table under an id that is not in use. -/
theorem Outstanding.register {n : Nat} {id : UInt32} (outstanding : w.Outstanding calls)
    (drew : w.drawn n = some id) (unused : w.Unused (.register n)) :
    { w.setPc n .registered with
      ch := { w.ch with requests := w.ch.requests.insert id (calls n).ctrl }
      owner := Function.update w.owner id n : World }.Outstanding calls := by
  obtain ⟨absent, others⟩ := unused id drew
  refine ⟨?_, ?_, ?_, outstanding.answer⟩
  · intro m now
    by_cases same : m = n
    · subst same
      exact .inr ⟨id, by simp, drew, by simp⟩
    · have before : w.Accepted m := by simpa [Accepted, World.setPc, same] using now
      refine (outstanding.kept m before).imp_right ?_
      rintro ⟨other, stored, drewOther, owner⟩
      have distinct : other ≠ id := by
        rintro rfl
        exact absent stored
      exact ⟨other, by simp [stored], drewOther, by simp [distinct, owner]⟩
  · intro m other inFlight drewOther stored
    by_cases same : m = n
    · subst same
      obtain rfl : id = other := Option.some.inj (drew.symm.trans drewOther)
      simp
    · have before : (w.pc m).InFlight := by simpa [World.setPc, same] using inFlight
      have distinct : other ≠ id := by
        rintro rfl
        exact others m same before drewOther
      have earlier : other ∈ w.ch.requests := by simpa [distinct] using stored
      simp only [Function.update_of_ne distinct]
      exact outstanding.own m other before drewOther earlier
  · intro other ctrl stored
    by_cases same : other = id
    · subst same
      simp only [AList.lookup_insert, Option.some.injEq] at stored
      exact ⟨n, stored.symm⟩
    · simp only [AList.lookup_insert_ne same] at stored
      exact outstanding.entry other ctrl stored

/-- A failed call takes out its own entry only. -/
theorem Outstanding.removed {n : Nat} {id : UInt32} (outstanding : w.Outstanding calls)
    (was : w.pc n = .reset) (drew : w.drawn n = some id) :
    { w.setPc n (.returned (-4)) with ch := (w.ch.removeRequest id).2 : World }.Outstanding
      calls := by
  refine ⟨?_, ?_, ?_, outstanding.answer⟩
  · intro m now
    have other : m ≠ n := by
      rintro rfl
      rcases now with now | now <;> simp [World.setPc] at now
    have before : w.Accepted m := by simpa [Accepted, World.setPc, other] using now
    refine (outstanding.kept m before).imp_right ?_
    rintro ⟨own, stored, drewOwn, owner⟩
    have distinct : own ≠ id := by
      rintro rfl
      exact other (owner.symm.trans (outstanding.own n own (.inr (.inr was)) drew stored))
    exact ⟨own, (RpcChannel.removeRequest_mem_iff _ distinct).mpr stored, drewOwn, owner⟩
  · intro m other inFlight drewOther stored
    have moving : m ≠ n := by
      rintro rfl
      simp [World.setPc, Pc.InFlight] at inFlight
    exact outstanding.own m other (by simpa [World.setPc, moving] using inFlight) drewOther
      (RpcChannel.removeRequest_mem _ stored)
  · exact fun other ctrl stored =>
      outstanding.entry other ctrl (RpcChannel.removeRequest_subset _ stored)

/-- A response serves the call whose entry it finds. -/
theorem Outstanding.found {id : UInt32} {ctrl : Nat} {code : Int32} {body : List UInt8}
    (outstanding : w.Outstanding calls) (was : w.phase = .idle)
    (stored : w.ch.requests.lookup id = some ctrl) :
    { w with
      ch := (w.ch.removeRequest id).2
      phase := .found ⟨id, w.owner id, ctrl, code, body⟩ : World }.Outstanding calls := by
  refine ⟨?_, ?_, ?_, ?_⟩
  · intro n accepted
    rcases outstanding.kept n accepted with (fired | completing) | ⟨own, member, drew, owner⟩
    · exact .inl (.inl fired)
    · simp [Completing, was] at completing
    · by_cases same : own = id
      · subst same
        exact .inl (.inr owner)
      · exact .inr ⟨own, (RpcChannel.removeRequest_mem_iff _ same).mpr member, drew, owner⟩
  · exact fun n other inFlight drew member =>
      outstanding.own n other inFlight drew (RpcChannel.removeRequest_mem _ member)
  · exact fun other ctrl member =>
      outstanding.entry other ctrl (RpcChannel.removeRequest_subset _ member)
  · rintro answer ⟨rfl⟩
    exact outstanding.entry id ctrl stored

/-- The close runs the callbacks of all entries. -/
theorem Outstanding.close (outstanding : w.Outstanding calls) (client : w.ch.serving = false)
    (done : ∀ n, (w.ch.ctrls (calls n).ctrl).done = true) {id : UInt32}
    (stored : id ∈ w.ch.requests) : ∃ firing ∈ w.closeFirings, firing.call = w.owner id := by
  obtain ⟨ctrl, found⟩ := lookup_of_mem stored
  obtain ⟨n, rfl⟩ := outstanding.entry id ctrl found
  refine ⟨⟨w.owner id, (calls n).ctrl, enetwork, []⟩, ?_, rfl⟩
  unfold closeFirings
  rw [if_neg (by simp [client])]
  exact List.mem_filterMap.mpr ⟨⟨id, (calls n).ctrl⟩, AList.mem_lookup_iff.mp found, by simp [done]⟩

/-- After a close all accepted calls have had their callback run. -/
theorem Outstanding.closed (outstanding : w.Outstanding calls) (client : w.ch.serving = false)
    (done : ∀ n, (w.ch.ctrls (calls n).ctrl).done = true) (was : w.phase = .idle) {n : Nat}
    (accepted : w.Accepted n) :
    { w with ch := w.ch.onClose.2, fired := w.fired ++ w.closeFirings : World }.Fired n := by
  rcases outstanding.kept n accepted with (⟨firing, member, own⟩ | completing) |
    ⟨id, stored, drew, owner⟩
  · exact ⟨firing, List.mem_append_left _ member, own⟩
  · simp [Completing, was] at completing
  · obtain ⟨firing, member, own⟩ := outstanding.close client done stored
    exact ⟨firing, List.mem_append_right _ member, own.trans owner⟩

/-- A request whose id is not drawn again stays outstanding until it is completed. -/
theorem Outstanding.step {action : Action} (outstanding : w.Outstanding calls)
    (client : w.ch.serving = false) (done : ∀ n, (w.ch.ctrls (calls n).ctrl).done = true)
    (unused : w.Unused action) (transition : World.step calls w action = some next) :
    next.Outstanding calls := by
  cases step_transition transition with
  | checkRefused was error =>
      apply outstanding.setPc
      · rintro (same | same)
        · cases same
        · cases same
          rcases error with error | error <;> cases error
      · simp [Pc.InFlight]
  | checkPassed was connected => exact outstanding.setPc (by simp) (by simp [Pc.InFlight])
  | markRefused was => exact outstanding.setPc (by simp) (by simp [Pc.InFlight])
  | @markAccepted n change was doneKept marks resp =>
      have moved : (w.setPc n .marked).Outstanding calls :=
        outstanding.setPc (by simp) (by simp [Pc.InFlight])
      refine moved.frame (fun _ now => now) (fun _ now => now) ?_ rfl rfl (fun _ now => now)
        (fun _ now => now)
      intro m registered
      have other : m ≠ n := by
        rintro rfl
        simp [World.setPc, Pc.Unregistered] at registered
      simp [World.setPc, other]
  | registerRefused was marked => exact outstanding.setPc (by simp) (by simp [Pc.InFlight])
  | registerAccepted was drew => exact outstanding.register drew unused
  | sent was connected => exact outstanding.setPc (fun _ => .inl was) (by simp [Pc.InFlight])
  | sendFailed was error => exact outstanding.setPc (by simp) (fun _ => .inl was)
  | @reset n was =>
      have moved : (w.setPc n .reset).Outstanding calls :=
        outstanding.setPc (by simp) (fun _ => .inr (.inl was))
      exact moved.frame (fun _ now => now) (fun _ now => now) (fun _ _ => rfl) rfl rfl
        (fun _ now => now) (fun _ now => now)
  | removed was drew => exact outstanding.removed was drew
  | unknown was absent => exact outstanding
  | found was stored => exact outstanding.found was stored
  | inspected was =>
      refine outstanding.frame (fun _ now => now) (fun _ now => now) (fun _ _ => rfl) rfl rfl
        ?_ ?_
      · rintro n (fired | completing)
        · exact .inl fired
        · exact .inr (by simpa [Completing, was] using completing)
      · intro answer now
        cases now
        simp [answering, was]
  | @completed answer bnotify was =>
      refine outstanding.frame (fun _ now => now) (fun _ now => now) (fun _ _ => rfl) rfl rfl
        ?_ ?_
      · rintro n (⟨firing, member, own⟩ | completing)
        · exact .inl ⟨firing, List.mem_append_left _ member, own⟩
        · obtain rfl : answer.call = n := by simpa [Completing, was] using completing
          obtain ⟨m, ctrl⟩ := outstanding.answer answer (by simp [answering, was])
          have fires : ∃ firing ∈ w.answerFiring answer, firing.call = answer.call := by
            rw [answerFiring, if_pos (by rw [ctrl, done])]
            exact ⟨_, List.mem_singleton_self _, rfl⟩
          obtain ⟨firing, member, own⟩ := fires
          exact .inl ⟨firing, List.mem_append_right _ member, own⟩
      · intro other now
        cases now
        simp [answering, was]
  | remarked was =>
      refine outstanding.frame (fun _ now => now) (fun _ now => now) (fun _ _ => rfl) rfl ?_
        ?_ ?_
      · simp only
        split <;> rfl
      · rintro n (fired | completing)
        · exact .inl fired
        · simp [Completing, was] at completing
      · intro answer now
        cases now
  | connection =>
      exact outstanding.frame (fun _ now => now) (fun _ now => now) (fun _ _ => rfl) rfl rfl
        (fun _ now => now) (fun _ now => now)
  | closed was =>
      refine ⟨?_, ?_, ?_, outstanding.answer⟩
      · exact fun n accepted => .inl (.inl (outstanding.closed client done was accepted))
      · intro n id _ _ stored
        exact absurd stored (AList.notMem_empty id)
      · intro id ctrl stored
        simp at stored

end World

end Sdpf.Client
