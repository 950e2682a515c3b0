import Mathlib.Data.List.Basic

/-!
# Labelled machines and their finite runs

A `Machine` is a partial step function with a set of initial states. Runs retain
their whole action sequence, so a property of a run may speak about what was done
as well as about the state reached. `Along` states a condition on every step of a
run, evaluated in the state just before that step; the guarded rules below are the
ones used for properties that hold only while such a condition is respected.

Nothing here refers to a particular program.
-/

namespace Sdpf.Semantics

/-- A transition system given by an executable partial step function. -/
structure Machine (State Action : Type) where
  Initial : State → Prop
  step : State → Action → Option State

namespace Machine

variable {State Action : Type} (machine : Machine State Action)

/-- Finite runs from a selected start, with the actions taken in order. -/
inductive Runs (start : State) : List Action → State → Prop where
  | refl : Runs start [] start
  | step {actions state action next}
      (prior : Runs start actions state)
      (transition : machine.step state action = some next) :
      Runs start (actions ++ [action]) next

/-- A state some run from an initial state ends in. -/
def Reachable (state : State) : Prop :=
  ∃ start actions, machine.Initial start ∧ machine.Runs start actions state

/-- Execute a list of actions, stopping at the first one that is not enabled. -/
def run (start : State) : List Action → Option State
  | [] => some start
  | action :: rest => (machine.step start action).bind fun next => run next rest

/-- The condition holds in the state before each step of the action sequence. -/
def Along (condition : State → Action → Prop) (start : State) : List Action → Prop
  | [] => True
  | action :: rest =>
      condition start action ∧
        ∀ next, machine.step start action = some next → Along condition next rest

variable {machine}

/-- Put one step in front of a run. -/
theorem Runs.cons {start middle finish : State} {action : Action} {actions : List Action}
    (first : machine.step start action = some middle)
    (rest : machine.Runs middle actions finish) :
    machine.Runs start (action :: actions) finish := by
  induction rest with
  | refl => exact @Runs.step _ _ machine start [] _ _ _ .refl first
  | step prior transition ih => exact Runs.step ih transition

/-- Compose two runs that meet at the same state. -/
theorem Runs.trans {start middle finish : State} {before after : List Action}
    (first : machine.Runs start before middle)
    (second : machine.Runs middle after finish) :
    machine.Runs start (before ++ after) finish := by
  induction second with
  | refl => simpa using first
  | step prior transition ih =>
      rw [← List.append_assoc]
      exact Runs.step ih transition

/-- Every executed action list is a run. -/
theorem Runs.of_run {start finish : State} {actions : List Action}
    (executed : machine.run start actions = some finish) :
    machine.Runs start actions finish := by
  induction actions generalizing start with
  | nil =>
      cases executed
      exact .refl
  | cons action rest ih =>
      simp only [run, Option.bind_eq_some_iff] at executed
      obtain ⟨middle, first, remaining⟩ := executed
      exact Runs.cons first (ih remaining)

/-- What an executed action list is found to end in. -/
theorem Runs.of_map {α : Type} {view : State → α} {start : State} {actions : List Action}
    {seen : α} (executed : (machine.run start actions).map view = some seen) :
    ∃ finish, machine.Runs start actions finish ∧ view finish = seen := by
  obtain ⟨finish, reached, same⟩ := Option.map_eq_some_iff.mp executed
  exact ⟨finish, Runs.of_run reached, same⟩

/-- A run can be cut at any point of its action sequence. -/
theorem Runs.split {start finish : State} {before after : List Action}
    (runs : machine.Runs start (before ++ after) finish) :
    ∃ middle, machine.Runs start before middle ∧ machine.Runs middle after finish := by
  generalize whole : before ++ after = actions at runs
  induction runs generalizing after with
  | refl =>
      obtain ⟨rfl, rfl⟩ := List.append_eq_nil_iff.mp whole
      exact ⟨start, .refl, .refl⟩
  | @step actions state action next prior transition ih =>
      rcases List.eq_nil_or_concat' after with rfl | ⟨shorter, last, rfl⟩
      · rw [List.append_nil] at whole
        subst whole
        exact ⟨next, .step prior transition, .refl⟩
      · rw [← List.append_assoc] at whole
        obtain ⟨same, lastSame⟩ := List.append_inj' whole rfl
        obtain ⟨middle, first, second⟩ := ih same
        cases lastSame
        exact ⟨middle, first, .step second transition⟩

/-- Cut a run just before a named action. -/
theorem Runs.split_cons {start finish : State} {before after : List Action} {action : Action}
    (runs : machine.Runs start (before ++ action :: after) finish) :
    ∃ state next, machine.Runs start before state ∧
      machine.step state action = some next ∧ machine.Runs next after finish := by
  rw [← List.singleton_append, ← List.append_assoc] at runs
  obtain ⟨next, first, second⟩ := runs.split
  generalize whole : before ++ [action] = actions at first
  cases first with
  | refl => simp at whole
  | step prior transition =>
      obtain ⟨same, lastSame⟩ := List.append_inj' whole rfl
      cases same
      cases lastSame
      exact ⟨_, next, prior, transition, second⟩

/-- Step rule for invariants: what every step preserves, every run preserves. -/
theorem Runs.invariant (Inv : State → Prop) {start finish : State} {actions : List Action}
    (preserved : ∀ {state action next}, Inv state → machine.step state action = some next → Inv next)
    (holds : Inv start) (runs : machine.Runs start actions finish) : Inv finish := by
  induction runs with
  | refl => exact holds
  | step _ transition ih => exact preserved ih transition

/-- An invariant of the initial states and of the steps holds in every reachable state. -/
theorem Reachable.invariant (Inv : State → Prop) {state : State}
    (initial : ∀ start, machine.Initial start → Inv start)
    (preserved : ∀ {state action next}, Inv state → machine.step state action = some next → Inv next)
    (reachable : machine.Reachable state) : Inv state := by
  obtain ⟨start, actions, valid, runs⟩ := reachable
  exact runs.invariant Inv preserved (initial start valid)

/-- A condition along an action sequence splits at any point of a run. -/
theorem Along.append {condition : State → Action → Prop} {start middle : State}
    {before after : List Action} (first : machine.Runs start before middle) :
    machine.Along condition start (before ++ after) ↔
      machine.Along condition start before ∧ machine.Along condition middle after := by
  induction first generalizing after with
  | refl => simp [Along]
  | @step actions state action next prior transition ih =>
      rw [List.append_assoc, ih, ih]
      simp only [List.cons_append, List.nil_append, Along, transition, Option.some.injEq,
        forall_eq', and_true]
      exact and_assoc.symm

/-- A condition that holds before a step and along what follows it. -/
theorem Along.cons {condition : State → Action → Prop} {start next : State} {action : Action}
    {rest : List Action} (here : condition start action)
    (first : machine.step start action = some next) (along : machine.Along condition next rest) :
    machine.Along condition start (action :: rest) := by
  refine ⟨here, fun other second => ?_⟩
  rw [first] at second
  cases second
  exact along

/-- A condition along a run that is extended by one step. -/
theorem Along.snoc {condition : State → Action → Prop} {start state : State}
    {actions : List Action} {action : Action} (prior : machine.Runs start actions state) :
    machine.Along condition start (actions ++ [action]) ↔
      machine.Along condition start actions ∧ condition state action := by
  rw [Along.append prior]
  simp [Along]

/-- A condition that every step of a run meets, by an argument on the state before it. -/
theorem Runs.along_of {condition : State → Action → Prop} {start finish : State}
    {actions : List Action} (runs : machine.Runs start actions finish)
    (meets : ∀ {before state action after}, machine.Runs start before state →
      actions = before ++ action :: after → condition state action) :
    machine.Along condition start actions := by
  induction runs with
  | refl => trivial
  | @step actions state action next prior transition ih =>
      refine (Along.snoc prior).mpr ⟨ih ?_, meets prior rfl⟩
      intro before state earlier after runs same
      exact meets runs (by rw [same, List.append_assoc, List.cons_append])

/-- Guarded step rule: an invariant that steps meeting a condition preserve holds
after every run all of whose steps meet it. -/
theorem Runs.guarded (Inv : State → Prop) {condition : State → Action → Prop}
    {start finish : State} {actions : List Action}
    (preserved : ∀ {state action next}, Inv state → condition state action →
      machine.step state action = some next → Inv next)
    (holds : Inv start) (runs : machine.Runs start actions finish)
    (along : machine.Along condition start actions) : Inv finish := by
  induction runs with
  | refl => exact holds
  | step prior transition ih =>
      obtain ⟨before, here⟩ := (Along.snoc prior).mp along
      exact preserved (ih before) here transition

/-- Guarded step rule for invariants that also speak about the actions taken. -/
theorem Runs.guarded_history (Inv : List Action → State → Prop)
    {condition : State → Action → Prop} {start finish : State} {actions : List Action}
    (preserved : ∀ {actions state action next}, Inv actions state → condition state action →
      machine.step state action = some next → Inv (actions ++ [action]) next)
    (holds : Inv [] start) (runs : machine.Runs start actions finish)
    (along : machine.Along condition start actions) : Inv actions finish := by
  induction runs with
  | refl => exact holds
  | step prior transition ih =>
      obtain ⟨before, here⟩ := (Along.snoc prior).mp along
      exact preserved (ih before) here transition

/-- Where a bad state is a dead end, and a step leads there exactly when it breaks the
condition, a run has kept clear of it exactly when all its steps meet the condition. -/
theorem Runs.clear_iff (Bad : State → Prop) {condition : State → Action → Prop}
    (stuck : ∀ {state action next}, machine.step state action = some next → ¬ Bad state)
    (breaks : ∀ {state action next}, machine.step state action = some next →
      (¬ Bad next ↔ condition state action))
    {start finish : State} {actions : List Action} (clear : ¬ Bad start)
    (runs : machine.Runs start actions finish) :
    ¬ Bad finish ↔ machine.Along condition start actions := by
  induction runs with
  | refl => simp [clear, Along]
  | step prior transition ih =>
      rw [Along.snoc prior, breaks transition]
      exact ⟨fun here => ⟨ih.mp (stuck transition), here⟩, And.right⟩

/-- The same, where it takes an invariant of the states that are not bad to tell which steps
lead to one. -/
theorem Runs.clear_iff_of_invariant (Bad Inv : State → Prop) {condition : State → Action → Prop}
    (stuck : ∀ {state action next}, machine.step state action = some next → ¬ Bad state)
    (breaks : ∀ {state action next}, Inv state → machine.step state action = some next →
      (¬ Bad next ↔ condition state action) ∧ (¬ Bad next → Inv next))
    {start finish : State} {actions : List Action} (holds : Inv start) (clear : ¬ Bad start)
    (runs : machine.Runs start actions finish) :
    (¬ Bad finish ↔ machine.Along condition start actions) ∧ (¬ Bad finish → Inv finish) := by
  induction runs with
  | refl => simp [clear, holds, Along]
  | step prior transition ih =>
      obtain ⟨along, inv⟩ := ih
      obtain ⟨here, kept⟩ := breaks (inv (stuck transition)) transition
      refine ⟨?_, kept⟩
      rw [Along.snoc prior, here]
      exact ⟨fun now => ⟨along.mp (stuck transition), now⟩, And.right⟩

/-- What is known of each action holds along the run. -/
theorem Along.of_mem {known : Action → Prop} {start : State} {actions : List Action}
    (all : ∀ action ∈ actions, known action) :
    machine.Along (fun _ action => known action) start actions := by
  induction actions generalizing start with
  | nil => trivial
  | cons action rest ih =>
      exact ⟨all action List.mem_cons_self, fun _ _ =>
        ih fun other member => all other (List.mem_cons_of_mem _ member)⟩

/-- A weaker condition along a run. -/
theorem Along.imp {condition other : State → Action → Prop} {start : State}
    {actions : List Action} (along : machine.Along condition start actions)
    (weaker : ∀ state action, condition state action → other state action) :
    machine.Along other start actions := by
  induction actions generalizing start with
  | nil => trivial
  | cons action rest ih =>
      exact ⟨weaker _ _ along.1, fun next transition => ih (along.2 next transition)⟩

/-- Two conditions along a run. -/
theorem Along.and {condition other : State → Action → Prop} {start : State}
    {actions : List Action} (first : machine.Along condition start actions)
    (second : machine.Along other start actions) :
    machine.Along (fun state action => condition state action ∧ other state action) start
      actions := by
  induction actions generalizing start with
  | nil => trivial
  | cons action rest ih =>
      exact ⟨⟨first.1, second.1⟩, fun next transition =>
        ih (first.2 next transition) (second.2 next transition)⟩

/-- A condition along a run, together with what is known of each of its actions. -/
theorem Along.and_mem {condition : State → Action → Prop} {known : Action → Prop} {start : State}
    {actions : List Action} (along : machine.Along condition start actions)
    (all : ∀ action ∈ actions, known action) :
    machine.Along (fun state action => condition state action ∧ known action) start actions :=
  along.and (.of_mem all)

/-- Whether a condition holds along an action sequence can be computed. -/
instance Along.decidable {condition : State → Action → Prop}
    [∀ state action, Decidable (condition state action)] :
    (start : State) → (actions : List Action) → Decidable (machine.Along condition start actions)
  | _, [] => .isTrue trivial
  | start, action :: rest =>
      match taken : machine.step start action with
      | none => decidable_of_iff (condition start action)
          ⟨fun here => ⟨here, fun next now => by simp [taken] at now⟩, And.left⟩
      | some next =>
          have : Decidable (machine.Along condition next rest) := Along.decidable next rest
          decidable_of_iff (condition start action ∧ machine.Along condition next rest)
            ⟨fun both => ⟨both.1, fun other now => by
              rw [taken] at now
              cases now
              exact both.2⟩, fun along => ⟨along.1, along.2 next taken⟩⟩

end Machine

end Sdpf.Semantics
