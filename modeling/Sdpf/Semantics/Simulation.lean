import Sdpf.Semantics.Machine
import Mathlib.Data.List.Forall2

/-!
# Simulation of one machine by another

A step of a machine is matched by a run of its specification, which may be empty or
take several moves. `Matches` says which moves may stand for an action, and `Meets` is
what is assumed of the steps to be matched. `Simulation.runs` carries whole runs over,
and with them whatever is known of the runs of the specification.
-/

namespace Sdpf.Semantics

variable {State Action Spec Move : Type}

/-- Every step that meets the assumption is matched by moves of the specification. -/
structure Simulation (machine : Machine State Action) (spec : Machine Spec Move)
    (Meets : State → Action → Prop) (Matches : Action → List Move → Prop) where
  Related : State → Spec → Prop
  initial : ∀ {start}, machine.Initial start → ∃ image, spec.Initial image ∧ Related start image
  step : ∀ {state action next image}, Related state image → Meets state action →
    machine.step state action = some next →
    ∃ moves final, Matches action moves ∧ spec.Runs image moves final ∧ Related next final

namespace Simulation

variable {machine : Machine State Action} {spec : Machine Spec Move}
  {Meets : State → Action → Prop} {Matches : Action → List Move → Prop}
  (simulation : Simulation machine spec Meets Matches)
include simulation

/-- A run from a related state is matched part by part. -/
theorem runs {start finish : State} {actions : List Action} {image : Spec}
    (related : simulation.Related start image) (runs : machine.Runs start actions finish)
    (meets : machine.Along Meets start actions) :
    ∃ parts final, List.Forall₂ Matches actions parts ∧ spec.Runs image parts.flatten final ∧
      simulation.Related finish final := by
  induction runs with
  | refl => exact ⟨[], image, .nil, .refl, related⟩
  | step prior transition ih =>
      obtain ⟨before, here⟩ := (Machine.Along.snoc prior).mp meets
      obtain ⟨parts, middle, matched, earlier, related⟩ := ih before
      obtain ⟨moves, final, one, later, related⟩ := simulation.step related here transition
      refine ⟨parts ++ [moves], final, List.rel_append matched (.cons one .nil), ?_, related⟩
      rw [List.flatten_append, List.flatten_singleton]
      exact earlier.trans later

/-- A run from an initial state is matched by one of the specification. -/
theorem of_initial {start finish : State} {actions : List Action}
    (initial : machine.Initial start) (runs : machine.Runs start actions finish)
    (meets : machine.Along Meets start actions) :
    ∃ image parts final, spec.Initial image ∧ List.Forall₂ Matches actions parts ∧
      spec.Runs image parts.flatten final ∧ simulation.Related finish final := by
  obtain ⟨image, valid, related⟩ := simulation.initial initial
  obtain ⟨parts, final, matched, moved, related⟩ := simulation.runs related runs meets
  exact ⟨image, parts, final, valid, matched, moved, related⟩

end Simulation

/-- The machine without the steps that miss a condition. -/
def Machine.restrict (machine : Machine State Action) (condition : State → Action → Prop)
    [∀ state action, Decidable (condition state action)] : Machine State Action where
  Initial := machine.Initial
  step state action := if condition state action then machine.step state action else none

/-- Its runs are the runs that meet the condition all along. -/
theorem Machine.Runs.of_restrict {machine : Machine State Action}
    {condition : State → Action → Prop} [∀ state action, Decidable (condition state action)]
    {start finish : State} {actions : List Action}
    (runs : (machine.restrict condition).Runs start actions finish) :
    machine.Runs start actions finish ∧ machine.Along condition start actions := by
  induction runs with
  | refl => exact ⟨.refl, trivial⟩
  | step prior transition ih =>
      simp only [Machine.restrict] at transition
      split_ifs at transition with here
      exact ⟨.step ih.1 transition, (Machine.Along.snoc ih.1).mpr ⟨ih.2, here⟩⟩

/-- Counting the moves of a kind: no more than the actions they stand for. -/
theorem countP_flatten_le {Matches : Action → List Move → Prop} {p : Action → Bool}
    {q : Move → Bool} {actions : List Action} {parts : List (List Move)}
    (matched : List.Forall₂ Matches actions parts)
    (bound : ∀ action moves, Matches action moves →
      moves.countP q ≤ if p action then 1 else 0) :
    parts.flatten.countP q ≤ actions.countP p := by
  induction matched with
  | nil => exact Nat.le_refl _
  | @cons action moves actions parts one rest ih =>
      have here := bound action moves one
      rw [List.flatten_cons, List.countP_append, List.countP_cons]
      omega

end Sdpf.Semantics
