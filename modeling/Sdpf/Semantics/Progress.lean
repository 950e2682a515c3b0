import Sdpf.Semantics.Machine

/-!
# Runs that come to an end

A machine that can always take a useful step as long as it has not reached its goal, and
each time loses rank, has a run to the goal no longer than the rank it started with. Where
every useful step loses rank, no run of useful steps is longer.
-/

namespace Sdpf.Semantics.Machine

variable {State Action : Type} (machine : Machine State Action)

/-- From progress of one step to a run that reaches the goal. -/
theorem exists_runs_of_rank (Inv Goal : State → Prop) (Useful : State → Action → Prop)
    (rank : State → Nat)
    (progress : ∀ {state}, Inv state → ¬ Goal state → ∃ action next,
      machine.step state action = some next ∧ Useful state action ∧ Inv next ∧
        rank next < rank state)
    {start : State} (holds : Inv start) :
    ∃ actions finish, machine.Runs start actions finish ∧ machine.Along Useful start actions ∧
      actions.length ≤ rank start ∧ Inv finish ∧ Goal finish := by
  generalize bound : rank start = limit
  induction limit using Nat.strongRecOn generalizing start with
  | ind limit ih =>
      by_cases reached : Goal start
      · exact ⟨[], start, .refl, trivial, Nat.zero_le _, holds, reached⟩
      · obtain ⟨action, next, transition, useful, kept, less⟩ := progress holds reached
        obtain ⟨actions, finish, runs, along, short, inv, goal⟩ :=
          ih (rank next) (bound ▸ less) kept rfl
        refine ⟨action :: actions, finish, .cons transition runs, .cons useful transition along,
          ?_, inv, goal⟩
        rw [List.length_cons]
        omega

variable {machine}

/-- A run whose steps all lose rank is no longer than the rank it loses. -/
theorem Runs.length_add_rank_le (Inv : State → Prop) (Useful : State → Action → Prop)
    (rank : State → Nat)
    (descends : ∀ {state action next}, Inv state → Useful state action →
      machine.step state action = some next → Inv next ∧ rank next < rank state)
    {start finish : State} {actions : List Action} (holds : Inv start)
    (runs : machine.Runs start actions finish) (along : machine.Along Useful start actions) :
    Inv finish ∧ actions.length + rank finish ≤ rank start := by
  induction runs with
  | refl => exact ⟨holds, Nat.le_of_eq (Nat.zero_add _)⟩
  | step prior transition ih =>
      obtain ⟨before, useful⟩ := (Along.snoc prior).mp along
      obtain ⟨inv, bound⟩ := ih before
      obtain ⟨kept, less⟩ := descends inv useful transition
      refine ⟨kept, ?_⟩
      rw [List.length_append, List.length_singleton]
      omega

end Sdpf.Semantics.Machine
