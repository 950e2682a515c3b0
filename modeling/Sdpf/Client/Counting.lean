import Sdpf.Client.Interleaving

/-!
# Counting the draws

Every call of `call_method` draws the next value of a counter of 32 bits. `Counting` keeps
the numbers the counter would have had without wrapping, and the calls whose requests are
outstanding.

Synchronous calls are among them: such a call leaves the table as it is when its wait
ends, whatever the outcome, and when its send has failed.
-/

namespace Sdpf.Client

open Sdpf.Data Sdpf.Channel Sdpf.Semantics

/-- A client channel whose draws are counted. -/
structure Counting where
  world : World
  draws : Nat
  /-- The number of a call's draw. -/
  order : Nat → Nat
  /-- The calls whose requests have been stored and not been taken out. -/
  live : List Nat

/-- A step of the threads, or the return of a synchronous call. -/
inductive Turn where
  | act (action : Action)
  | leave (n : Nat)

namespace Counting

/-- The entry under an id was there, and may have been taken out. -/
def settle (s : Counting) (id : UInt32) (world : World) : List Nat :=
  if id ∈ s.world.ch.requests ∧ id ∉ world.ch.requests then
    s.live.filter fun n => n ≠ s.world.owner id
  else
    s.live

/-- Keep count of a step. -/
def note (s : Counting) (world : World) : Action → Counting
  | .mark n =>
      if world.pc n = .marked then
        ⟨world, s.draws + 1, Function.update s.order n (s.draws + 1), s.live⟩
      else
        { s with world := world }
  | .register n =>
      { s with world := world, live := if world.pc n = .registered then n :: s.live else s.live }
  | .respond id _ _ => { s with world := world, live := s.settle id world }
  | .remove n =>
      match s.world.drawn n with
      | none => { s with world := world }
      | some id => { s with world := world, live := s.settle id world }
  | .close => { s with world := world, live := [] }
  | _ => { s with world := world }

variable (calls : Nat → Call)

/-- The call has no done callback, so that it waits for its answer. -/
def Waits (s : Counting) (n : Nat) : Prop := (s.world.ch.ctrls (calls n).ctrl).done = false

instance (s : Counting) (n : Nat) : Decidable (s.Waits calls n) := by
  unfold Waits
  infer_instance

/-- Take a step, if it is enabled. A call that waits does not return from its send. -/
def step (s : Counting) : Turn → Option Counting
  | .act (.send n ret) =>
      if s.Waits calls n then
        none
      else
        (s.world.step calls (.send n ret)).map fun world => s.note world (.send n ret)
  | .act action => (s.world.step calls action).map fun world => s.note world action
  | .leave n =>
      if s.world.pc n = .registered ∧ s.Waits calls n then
        some { s with world := s.world.setPc n (.returned 0) }
      else
        none

/-- Before the first call. -/
structure Initial (s : Counting) : Prop where
  world : s.world.Initial
  draws : s.draws = 0
  live : s.live = []

/-- The step enters a call into the table under this id. -/
def Inserts (s : Counting) (turn : Turn) (n : Nat) (id : UInt32) : Prop :=
  turn = .act (.register n) ∧ s.world.drawn n = some id ∧
    ∃ registered, s.world.ch.register (calls n) id = some registered

/-- An id that is inserted is not in the table. -/
def Fresh (s : Counting) (turn : Turn) : Prop :=
  ∀ n id, s.Inserts calls turn n id → id ∉ s.world.ch.requests

/-- No entry of the table stems from a draw a multiple of 2^32 before that of a call that
is entered. -/
def Spaced (s : Counting) (turn : Turn) : Prop :=
  ∀ n id, s.Inserts calls turn n id → ∀ key ∈ s.world.ch.requests,
    s.order (s.world.owner key) % 2 ^ 32 ≠ s.order n % 2 ^ 32

/-- Every outstanding request is in the table under its own id, with its own controller. -/
def Standing (s : Counting) : Prop :=
  ∀ n ∈ s.live, ∃ id, s.world.drawn n = some id ∧ s.world.owner id = n ∧
    s.world.ch.requests.lookup id = some (calls n).ctrl

end Counting

/-- The machine of all counted interleavings. -/
def countingMachine (calls : Nat → Call) : Machine Counting Turn where
  Initial := Counting.Initial
  step := Counting.step calls

namespace Counting

variable {calls : Nat → Call} {s next : Counting}

/-- Ids are the numbers of their draws modulo 2^32, and entries belong to calls that have
drawn their ids. -/
structure Numbered (s : Counting) : Prop where
  counter : s.world.ch.id.toNat = s.draws % 2 ^ 32
  drawn : ∀ n id, s.world.drawn n = some id → id.toNat = s.order n % 2 ^ 32
  entry : ∀ id ∈ s.world.ch.requests, s.world.drawn (s.world.owner id) = some id ∧
    ¬ (s.world.pc (s.world.owner id)).Unregistered

/-- Before the first call there is nothing to number. -/
theorem Numbered.of_initial (initial : s.Initial) : s.Numbered where
  counter := by rw [initial.world.id, initial.draws]; rfl
  drawn n id drew := by simp [initial.world.drawn] at drew
  entry id stored := by simp [initial.world.requests] at stored

/-- The id of a call is in the table exactly if an entry is a multiple of 2^32 draws away. -/
theorem Numbered.fresh_iff (numbered : s.Numbered) (turn : Turn) :
    s.Fresh calls turn ↔ s.Spaced calls turn := by
  constructor
  · intro fresh n id inserts key stored same
    obtain ⟨drew, _⟩ := numbered.entry key stored
    have equal : key = id := by
      apply UInt32.toNat_inj.mp
      rw [numbered.drawn _ key drew, numbered.drawn n id inserts.2.1, same]
    exact fresh n id inserts (equal ▸ stored)
  · intro spaced n id inserts stored
    obtain ⟨drew, _⟩ := numbered.entry id stored
    apply spaced n id inserts id stored
    rw [← numbered.drawn _ id drew, ← numbered.drawn n id inserts.2.1]

/-- A step that draws no id and adds no entry. -/
theorem Numbered.frame (numbered : s.Numbered) (counter : next.world.ch.id = s.world.ch.id)
    (draws : next.draws = s.draws) (order : next.order = s.order)
    (drawn : next.world.drawn = s.world.drawn) (owner : next.world.owner = s.world.owner)
    (requests : ∀ id ∈ next.world.ch.requests, id ∈ s.world.ch.requests)
    (onward : ∀ n, ¬ (s.world.pc n).Unregistered → ¬ (next.world.pc n).Unregistered) :
    next.Numbered where
  counter := by rw [counter, draws, numbered.counter]
  drawn n id drew := by rw [order]; exact numbered.drawn n id (by rwa [← drawn])
  entry id stored := by
    obtain ⟨drew, registered⟩ := numbered.entry id (requests id stored)
    rw [drawn, owner]
    exact ⟨drew, onward _ registered⟩

/-- Keeping count does not touch the channel. -/
@[simp] theorem note_world (world : World) (action : Action) :
    (s.note world action).world = world := by
  cases action <;> simp only [note] <;> split <;> rfl

/-- Only a draw is counted. -/
theorem note_kept {world : World} {action : Action}
    (undrawn : ∀ n, action = .mark n → world.pc n ≠ .marked) :
    (s.note world action).draws = s.draws ∧ (s.note world action).order = s.order := by
  cases action with
  | mark n => simp only [note, if_neg (undrawn n rfl), and_self]
  | remove n =>
      simp only [note]
      split <;> exact ⟨rfl, rfl⟩
  | _ => exact ⟨rfl, rfl⟩

/-- A step draws an id, or enters a call, or does neither. -/
inductive Counts (calls : Nat → Call) (w : World) : Action → World → Prop where
  | draws {n : Nat} {change : RpcController → RpcController} (was : w.pc n = .checked) :
      Counts calls w (.mark n) { w.setPc n .marked with
        ch := { w.ch with id := w.ch.id + 1 }.modify (calls n).ctrl change
        drawn := Function.update w.drawn n (some (w.ch.id + 1)) }
  | enters {n : Nat} {id : UInt32} (was : w.pc n = .marked) (drew : w.drawn n = some id) :
      Counts calls w (.register n) { w.setPc n .registered with
        ch := { w.ch with requests := w.ch.requests.insert id (calls n).ctrl }
        owner := Function.update w.owner id n }
  | neither {action : Action} {w' : World}
      (undrawn : ∀ n, action = .mark n → w'.pc n ≠ .marked)
      (outside : ∀ n, action = .register n → w'.pc n ≠ .registered)
      (counter : w'.ch.id = w.ch.id) (drawn : w'.drawn = w.drawn) (owner : w'.owner = w.owner)
      (requests : ∀ id ctrl, w'.ch.requests.lookup id = some ctrl →
        w.ch.requests.lookup id = some ctrl) :
      Counts calls w action w'

/-- What each step does to the counter, the table and the calls. -/
theorem step_counts {w w' : World} {action : Action} (moved : w.step calls action = some w') :
    Counts calls w action w' := by
  cases World.step_transition moved with
  | markAccepted was doneKept marks resp => exact .draws was
  | registerAccepted was drew => exact .enters was drew
  | removed was drew =>
      exact .neither (fun m is => by cases is) (fun m is => by cases is) (by simp) rfl rfl
        fun _ _ => RpcChannel.removeRequest_subset w.ch
  | found was stored =>
      exact .neither (fun m is => by cases is) (fun m is => by cases is) (by simp) rfl rfl
        fun _ _ => RpcChannel.removeRequest_subset w.ch
  | @remarked answer bnotify was =>
      cases bnotify <;>
        exact .neither (fun m is => by cases is) (fun m is => by cases is) rfl rfl rfl
          fun _ _ stored => stored
  | closed was =>
      refine .neither (fun m is => by cases is) (fun m is => by cases is)
        (RpcChannel.onClose_id w.ch) rfl rfl fun id ctrl stored => ?_
      simp at stored
  | _ =>
      exact .neither (fun m is => by cases is <;> simp [World.setPc])
        (fun m is => by cases is <;> simp [World.setPc]) rfl rfl rfl fun _ _ stored => stored

/-- The world moves as it does without counting. -/
theorem step_act {action : Action} (transition : s.step calls (.act action) = some next) :
    ∃ world, s.world.step calls action = some world ∧ next = s.note world action := by
  have moves : (s.world.step calls action).map (fun world => s.note world action) = some next := by
    cases action with
    | send n ret =>
        simp only [Counting.step] at transition
        split_ifs at transition
        exact transition
    | _ => exact transition
  obtain ⟨world, moved, same⟩ := Option.map_eq_some_iff.mp moves
  exact ⟨world, moved, same.symm⟩

/-- A synchronous call only returns. -/
theorem step_leave {n : Nat} (transition : s.step calls (.leave n) = some next) :
    s.world.pc n = .registered ∧ next = { s with world := s.world.setPc n (.returned 0) } := by
  simp only [Counting.step] at transition
  split_ifs at transition with waiting
  cases transition
  exact ⟨waiting.1, rfl⟩

/-- A step keeps the numbers of the draws in line with the ids. -/
theorem Numbered.step {turn : Turn} (numbered : s.Numbered)
    (transition : s.step calls turn = some next) : next.Numbered := by
  cases turn with
  | leave n =>
      obtain ⟨_, rfl⟩ := step_leave transition
      exact numbered.frame rfl rfl rfl rfl rfl (fun _ stored => stored)
        fun _ => World.setPc_registered (by simp [Pc.Unregistered])
  | act action =>
      obtain ⟨world, moved, rfl⟩ := step_act transition
      have onward : ∀ m, ¬ (s.world.pc m).Unregistered →
          ¬ ((s.note world action).world.pc m).Unregistered := fun m => by
        rw [note_world]
        exact World.step_registered moved
      cases step_counts moved with
      | @draws n change was =>
          have unregistered : (s.world.pc n).Unregistered := .inr (.inl was)
          have counter := numbered.counter
          simp only [note, World.setPc, Function.update_self, if_true]
          refine ⟨?_, fun m id drew => ?_, fun id stored => ?_⟩
          · simp only [RpcChannel.modify_id, UInt32.toNat_add, UInt32.toNat_one, counter]
            omega
          · by_cases same : m = n
            · subst same
              simp only [Function.update_self, Option.some.injEq] at drew ⊢
              rw [← drew]
              simp only [UInt32.toNat_add, UInt32.toNat_one, counter]
              omega
            · simp only [Function.update_of_ne same] at drew ⊢
              exact numbered.drawn m id drew
          · obtain ⟨drew, registered⟩ := numbered.entry id stored
            have other : s.world.owner id ≠ n := fun same => registered (same ▸ unregistered)
            simp only [Function.update_of_ne other]
            exact ⟨drew, registered⟩
      | @enters n id was drew =>
          have unregistered : (s.world.pc n).Unregistered := .inr (.inr (.inl was))
          refine ⟨numbered.counter, numbered.drawn, fun key stored => ?_⟩
          by_cases same : key = id
          · subst same
            simp [note, World.setPc, drew, Pc.Unregistered]
          · have before : key ∈ s.world.ch.requests := by simpa [note, same] using stored
            obtain ⟨owned, registered⟩ := numbered.entry key before
            have other : s.world.owner key ≠ n := fun same => registered (same ▸ unregistered)
            simp only [note, World.setPc, Function.update_of_ne same, Function.update_of_ne other]
            exact ⟨owned, registered⟩
      | neither undrawn outside counter drawn owner requests =>
          obtain ⟨draws, order⟩ := note_kept undrawn
          refine numbered.frame ?_ draws order ?_ ?_ ?_ onward
          · rw [note_world, counter]
          · rw [note_world, drawn]
          · rw [note_world, owner]
          · intro id stored
            rw [note_world] at stored
            obtain ⟨ctrl, found⟩ := lookup_of_mem stored
            exact mem_of_lookup (requests id ctrl found)

end Counting

end Sdpf.Client
