import Sdpf.Client.Marking

/-!
# One registration for a service

As long as the mark of a registration can be seen whenever a call looks for it, no second
registration for its service gets into the table (`registered_once`). The calls may also be
synchronous here.
-/

namespace Sdpf.Client

open Sdpf.Data Sdpf.Channel Sdpf.Semantics

namespace World

variable {calls : Nat → Call} {w next : World}

/-- A step of a mixed channel is one of an asynchronous call's, or a failed send of a call
without a callback. -/
theorem advance_cases {action : Action} (transition : w.advance calls action = some next) :
    w.step calls action = some next ∨
      ∃ n, w.pc n = .registered ∧ next = w.setPc n (.returned 0) := by
  cases action with
  | send n ret =>
      simp only [advance] at transition
      split_ifs at transition with unheard
      · cases transition
        exact .inr ⟨n, unheard.1, rfl⟩
      · exact .inl transition
  | _ => exact .inl transition

/-- A step of a mixed channel keeps the marks in step. -/
theorem Marked.advance {action : Action} (marked : w.Marked calls)
    (apart : Function.Injective fun n => (calls n).ctrl)
    (transition : w.advance calls action = some next) : next.Marked calls := by
  rcases advance_cases transition with taken | ⟨n, was, rfl⟩
  · exact marked.step apart taken
  · exact marked.setPc (by simp [Pc.Unregistered]) (by simp) (by simp [was, CleansUp])

/-- The scan finds a registration whose call is not being cleaned up, unless its callback is
being run after a success. -/
theorem Marked.repeated {id : UInt32} {call : Call} (marked : w.Marked calls)
    (registered : w.Registers calls id call.service) (sound : ¬ w.CleansUp (w.owner id))
    (unsuccessful : ¬ w.Succeeding (calls (w.owner id)).ctrl) : w.ch.Repeated call := by
  obtain ⟨member, notifies, service⟩ := registered
  obtain ⟨ctrl, stored⟩ := lookup_of_mem member
  obtain ⟨text, marks, _⟩ := marked.standing id member notifies sound
  obtain ⟨rfl, _⟩ := marked.entry id ctrl stored
  exact ⟨_, AList.mem_lookup_iff.mp stored, marks.resolve_right unsuccessful,
    (strcmp_eq_zero _ _).mpr (by rw [text, service])⟩

/-- A notification call that finds its service registered is turned away. -/
theorem Marked.refused {n : Nat} {id : UInt32} (marked : w.Marked calls)
    (settled : w.Settled calls (.register n)) (notify : (calls n).IsNotify)
    (registered : w.Registers calls id (calls n).service)
    (transition : w.step calls (.register n) = some next) :
    next = w.setPc n (.returned (-3)) := by
  simp only [World.step] at transition
  split_ifs at transition with other
  have was : w.pc n = .marked := not_not.mp other
  have repeated : w.ch.Repeated (calls n) := by
    obtain ⟨member, notifies, service⟩ := registered
    obtain ⟨ctrl, stored⟩ := lookup_of_mem member
    obtain ⟨sound, unsuccessful⟩ := settled notify _ (AList.mem_lookup_iff.mp stored) notifies
      service
    exact marked.repeated ⟨member, notifies, service⟩ sound unsuccessful
  cases drew : w.drawn n with
  | none => simp [drew] at transition
  | some id =>
      simp only [drew, RpcChannel.register_repeated (marked.calling n was notify).1 repeated]
        at transition
      cases transition
      rfl

/-- Only the table and its owners matter to the registrations. -/
theorem Registers.of_subset {id : UInt32} {service : CStr} (owner : next.owner = w.owner)
    (stored : id ∈ next.ch.requests → id ∈ w.ch.requests)
    (registered : next.Registers calls id service) : w.Registers calls id service := by
  obtain ⟨member, rest⟩ := registered
  exact ⟨stored member, owner ▸ rest⟩

/-- Only an accepted call adds to the table. -/
theorem step_table {action : Action} (transition : w.step calls action = some next) :
    (next.owner = w.owner ∧ ∀ id, id ∈ next.ch.requests → id ∈ w.ch.requests) ∨
      ∃ n id, action = .register n ∧ next.pc n = .registered ∧
        next.owner = Function.update w.owner id n ∧
        ∀ other, other ∈ next.ch.requests ↔ other = id ∨ other ∈ w.ch.requests := by
  cases step_transition transition with
  | @registerAccepted n id was drew =>
      exact .inr ⟨n, id, rfl, by simp [World.setPc], rfl, fun _ => AList.mem_insert _⟩
  | removed was drew => exact .inl ⟨rfl, fun _ => RpcChannel.removeRequest_mem _⟩
  | found was stored => exact .inl ⟨rfl, fun _ => RpcChannel.removeRequest_mem _⟩
  | remarked was =>
      refine .inl ⟨rfl, fun id stored => ?_⟩
      simp only at stored
      split at stored <;> exact stored
  | closed was => exact .inl ⟨rfl, fun id stored => by simp at stored⟩
  | _ => exact .inl ⟨rfl, fun _ stored => stored⟩

/-- A step does not make a second registration of a service. -/
theorem OneRegistration.step {action : Action} (one : w.OneRegistration calls)
    (marked : w.Marked calls) (settled : w.Settled calls action)
    (transition : w.step calls action = some next) : next.OneRegistration calls := by
  rcases step_table transition with ⟨owner, fewer⟩ | ⟨n, id, rfl, now, owner, table⟩
  · exact fun service first second one' two =>
      one service first second (one'.of_subset owner (fewer _)) (two.of_subset owner (fewer _))
  · -- The new entry is the only one of its service: with another one it would not be there.
    have alone : ∀ other service, next.Registers calls id service →
        next.Registers calls other service → other = id := by
      rintro other service ⟨-, notify, named⟩ ⟨member, rest⟩
      by_contra distinct
      simp only [owner, Function.update_self] at notify named
      simp only [owner, Function.update_of_ne distinct] at rest
      subst named
      have stored := ((table other).mp member).resolve_left distinct
      have refused := marked.refused settled notify ⟨stored, rest⟩ transition
      simp [refused, World.setPc] at now
    have before : ∀ other service, other ≠ id → next.Registers calls other service →
        w.Registers calls other service := by
      rintro other service distinct ⟨member, rest⟩
      simp only [owner, Function.update_of_ne distinct] at rest
      exact ⟨((table other).mp member).resolve_left distinct, rest⟩
    intro service first second registersFirst registersSecond
    by_cases isFirst : first = id
    · subst isFirst
      exact (alone second service registersFirst registersSecond).symm
    · by_cases isSecond : second = id
      · subst isSecond
        exact alone first service registersSecond registersFirst
      · exact one service first second (before _ _ isFirst registersFirst)
          (before _ _ isSecond registersSecond)

/-- Nor does the return of a synchronous call. -/
theorem OneRegistration.advance {action : Action} (one : w.OneRegistration calls)
    (marked : w.Marked calls) (settled : w.Settled calls action)
    (transition : w.advance calls action = some next) : next.OneRegistration calls := by
  rcases advance_cases transition with taken | ⟨n, was, rfl⟩
  · exact one.step marked settled taken
  · exact one

end World

/-- The machine of all interleavings of asynchronous and synchronous calls. -/
def mixedMachine (calls : Nat → Call) : Machine World Action where
  Initial := World.Initial
  step := World.advance calls

namespace World

variable {calls : Nat → Call}

/-- While every notification call finds the earlier registrations of its service settled,
no service has two of them, and a call that finds one returns -3. -/
theorem registered_once (apart : Function.Injective fun n => (calls n).ctrl)
    {start finish : World} {actions : List Action} (initial : start.Initial)
    (runs : (mixedMachine calls).Runs start actions finish)
    (settled : (mixedMachine calls).Along (Settled calls) start actions) :
    finish.OneRegistration calls ∧
      ∀ n id next, finish.Settled calls (.register n) → (calls n).IsNotify →
        finish.Registers calls id (calls n).service →
        (mixedMachine calls).step finish (.register n) = some next →
        next.pc n = .returned (-3) := by
  have both : finish.Marked calls ∧ finish.OneRegistration calls := by
    refine runs.guarded (fun w => w.Marked calls ∧ w.OneRegistration calls) ?_ ?_ settled
    · rintro state action next ⟨marked, one⟩ settled transition
      exact ⟨marked.advance apart transition, one.advance marked settled transition⟩
    · refine ⟨.of_initial initial, fun service first second registers _ => ?_⟩
      simp [Registers, initial.requests] at registers
  refine ⟨both.2, fun n id next calm notify registered taken => ?_⟩
  rw [both.1.refused calm notify registered taken]
  simp [World.setPc]

/-- Calls that all register a notification for one service. -/
def subscribers (n : Nat) : Call where
  service := ⟨[100], by decide⟩
  method := methodNotify
  request := none
  response := none
  ctrl := n

/-- A second registration after an answer with an error code, while its callback runs. -/
theorem registered_once_refused :
    ∃ finish, (mixedMachine subscribers).Runs (fresh true)
        [.check 0, .mark 0, .register 0, .send 0 0, .respond 1 7 [], .inspect, .complete,
          .check 1, .mark 1, .register 1, .remark] finish ∧
      finish.pc 1 = .returned (-3) ∧ finish.OneRegistration subscribers := by
  obtain ⟨finish, runs, seen⟩ := @Machine.Runs.of_map _ _ (mixedMachine subscribers) _
    (fun w => w.pc 1) (fresh true)
    [.check 0, .mark 0, .register 0, .send 0 0, .respond 1 7 [], .inspect, .complete,
      .check 1, .mark 1, .register 1, .remark] (.returned (-3)) (by decide +kernel)
  refine ⟨finish, runs, seen, (registered_once ?_ (fresh_initial true) runs ?_).1⟩
  · exact fun _ _ same => same
  · decide +kernel

/-- While the callback of a successful answer runs, a second call for the service is accepted. -/
theorem not_registered_once :
    ¬ ∀ (calls : Nat → Call), (Function.Injective fun n => (calls n).ctrl) →
      ∀ (start finish : World) (actions : List Action), start.Initial →
        (mixedMachine calls).Runs start actions finish → finish.OneRegistration calls := by
  intro once
  obtain ⟨finish, runs, seen⟩ := @Machine.Runs.of_map _ _ (mixedMachine subscribers) _
    (fun w => (w.ch.requests.keys, w.owner 1, w.owner 2)) (fresh true)
    [.check 0, .mark 0, .register 0, .send 0 0, .respond 1 0 [], .inspect, .complete,
      .check 1, .mark 1, .register 1, .send 1 0, .remark] ([2, 1], 0, 1) (by decide +kernel)
  simp only [Prod.mk.injEq] at seen
  obtain ⟨table, first, second⟩ := seen
  have notify : ∀ n, (subscribers n).IsNotify := fun _ => (strcmp_eq_zero _ _).mpr rfl
  have one := once subscribers (fun _ _ same => same) _ _ _ (fresh_initial true) runs
    ⟨[100], by decide⟩ 1 2
  refine absurd (one ⟨?_, notify _, rfl⟩ ⟨?_, notify _, rfl⟩) (by decide)
  · exact AList.mem_keys.mpr (by simp [table])
  · exact AList.mem_keys.mpr (by simp [table])

end World

end Sdpf.Client
