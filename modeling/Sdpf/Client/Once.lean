import Sdpf.Client.Attribution

/-!
# Ordinary calls are completed once

An ordinary request leaves the table when its response is found. Before a close, no
second response can therefore reach it, whatever the peer sends.
-/

namespace Sdpf.Client

open Sdpf.Data Sdpf.Channel Sdpf.Semantics

namespace World

/-- The call whose callback is about to be run. -/
def underway (w : World) : List Nat :=
  match w.phase with
  | .found answer | .inspected answer _ => [answer.call]
  | .idle | .completed _ _ => []

/-- The calls whose callbacks have been run or are about to be. -/
def completed (w : World) : List Nat := w.fired.map Firing.call ++ w.underway

/-- No call is completed twice, and completed calls are not in the table. -/
structure Once (w : World) : Prop where
  distinct : w.completed.Nodup
  gone : ∀ n ∈ w.completed, ¬ (w.pc n).Unregistered ∧
    ∀ id, w.drawn n = some id → id ∉ w.ch.requests

variable {calls : Nat → Call} {w next : World}

/-- Before the first call no callback has been run. -/
theorem Once.of_initial (initial : w.Initial) : w.Once := by
  have none : w.completed = [] := by simp [completed, underway, initial.fired, initial.phase]
  constructor
  · rw [none]
    exact List.nodup_nil
  · rw [none]
    exact fun n member => absurd member List.not_mem_nil

/-- Each call has at most one callback run. -/
theorem Once.firings (once : w.Once) (n : Nat) : (w.firings n).length ≤ 1 := by
  have distinct := (List.nodup_append.mp once.distinct).1
  have counted := List.nodup_iff_count_le_one.mp distinct n
  rw [List.count, List.countP_map, List.countP_eq_length_filter] at counted
  exact counted

/-- Callbacks run for the response being processed only. -/
theorem step_fired {action : Action} {firing : Firing} (unclosed : action ≠ .close)
    (transition : World.step calls w action = some next) (member : firing ∈ next.fired) :
    firing ∈ w.fired ∨ ∃ answer, w.answering = some answer ∧ firing.call = answer.call ∧
      firing.body = answer.body ∧ (firing.ec = 0 → answer.code = 0) := by
  cases step_transition transition with
  | @completed answer bnotify was =>
      refine (List.mem_append.mp member).imp_right fun now => ⟨answer, by simp [answering, was], ?_⟩
      unfold answerFiring at now
      split at now
      · rw [List.mem_singleton.mp now]
        exact ⟨rfl, rfl, RpcChannel.outcome_zero⟩
      · cases now
  | closed was => exact absurd rfl unclosed
  | _ => exact .inl member

/-- A step that completes no other call and adds no entry of a completed one. -/
theorem Once.frame {action : Action} (once : w.Once)
    (transition : World.step calls w action = some next)
    (completed : next.completed.Sublist w.completed)
    (requests : ∀ n ∈ w.completed, ∀ id, w.drawn n = some id → id ∈ next.ch.requests →
      id ∈ w.ch.requests) : next.Once := by
  refine ⟨once.distinct.sublist completed, fun n member => ?_⟩
  have before := completed.subset member
  obtain ⟨registered, gone⟩ := once.gone n before
  refine ⟨step_registered transition registered, fun id drew stored => ?_⟩
  rw [step_drawn transition registered] at drew
  exact gone id drew (requests n before id drew stored)

/-- A step runs the callback of an ordinary call for the first time, if at all. -/
theorem Once.step {action : Action} (once : w.Once) (attributed : w.Attributed calls)
    (attributed' : next.Attributed calls) (ordinary : ∀ n, ¬ (calls n).IsNotify)
    (unclosed : action ≠ .close) (transition : World.step calls w action = some next) :
    next.Once := by
  have same : ∀ {world : World}, world.completed = w.completed →
      world.completed.Sublist w.completed := fun same => same ▸ List.Sublist.refl _
  cases step_transition transition with
  | @registerAccepted n id was drew =>
      refine once.frame transition (same rfl) fun m member other drewOther stored => ?_
      have distinct : other ≠ id := by
        rintro rfl
        obtain rfl := attributed.distinct m n other drewOther drew
        exact (once.gone m member).1 (.inr (.inr (.inl was)))
      simpa [distinct] using stored
  | removed was drew =>
      exact once.frame transition (same rfl) fun _ _ _ _ => RpcChannel.removeRequest_mem _
  | @found id code body ctrl was stored =>
      obtain ⟨drew, _, registered⟩ := attributed.entry id ctrl stored
      have fired : w.completed = w.fired.map Firing.call := by simp [completed, underway, was]
      have new : w.owner id ∉ w.completed := fun member =>
        (once.gone _ member).2 id drew (mem_of_lookup stored)
      constructor
      · change (w.fired.map Firing.call ++ [w.owner id]).Nodup
        rw [← fired]
        exact once.distinct.append (List.nodup_singleton _) (by simpa using new)
      · intro n member
        change n ∈ w.fired.map Firing.call ++ [w.owner id] at member
        rw [← fired] at member
        rcases List.mem_append.mp member with earlier | now
        · exact ⟨(once.gone n earlier).1, fun other drewOther stored =>
            (once.gone n earlier).2 other drewOther (RpcChannel.removeRequest_mem _ stored)⟩
        · obtain rfl := List.mem_singleton.mp now
          refine ⟨registered, fun other drewOther => ?_⟩
          obtain rfl : id = other := Option.some.inj (drew.symm.trans drewOther)
          exact (attributed'.answer _ rfl).2.2.2 (ordinary _)
  | inspected was =>
      exact once.frame transition (same (by simp [completed, underway, was]))
        fun _ _ _ _ stored => stored
  | @completed answer bnotify was =>
      refine once.frame transition ?_ fun _ _ _ _ stored => stored
      simp only [completed, underway, was, List.map_append, List.append_nil]
      refine List.Sublist.append_left ?_ _
      unfold answerFiring
      split <;> simp
  | remarked was =>
      refine once.frame transition (same (by simp [completed, underway, was]))
        fun _ _ _ _ stored => ?_
      simp only at stored
      split at stored <;> exact stored
  | closed was => exact absurd rfl unclosed
  | _ => exact once.frame transition (same rfl) fun _ _ _ _ stored => stored

end World

end Sdpf.Client
