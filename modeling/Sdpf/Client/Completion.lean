import Sdpf.Client.Tracking

/-!
# Completion under an arbitrary peer

Whatever responses arrive, an accepted call is completed by the first one that carries
its id, and a registered notification by every one of them; the close completes what is
left. A response that carries no id of the table changes nothing, and the others reach
only the controller stored under their id.
-/

namespace Sdpf.Client

open Sdpf.Data Sdpf.Channel Sdpf.Semantics

/-- The loop thread is at work on a response. -/
def Action.OfResponse : Action → Prop
  | .respond _ _ _ | .inspect | .complete | .remark => True
  | _ => False

/-- The callback run for a call that the close completes. -/
def closing (calls : Nat → Call) (n : Nat) : Firing := ⟨n, (calls n).ctrl, enetwork, []⟩

namespace World

variable {calls : Nat → Call} {w next start : World} {n : Nat} {id : UInt32}
  {actions : List Action}

/-- A response that carries no id of the table changes nothing. -/
theorem respond_unknown {code : Int32} {body : List UInt8} (absent : id ∉ w.ch.requests)
    (transition : World.step calls w (.respond id code body) = some next) : next = w := by
  cases step_transition transition with
  | unknown was missing => rfl
  | found was stored =>
      rw [AList.lookup_eq_none.mpr absent] at stored
      cases stored

/-- A response reaches the controller stored under its id, and no other. -/
theorem response_confined {action : Action} {ctrl : Nat} (response : action.OfResponse)
    (transition : World.step calls w action = some next)
    (changed : next.ch.ctrls ctrl ≠ w.ch.ctrls ctrl) :
    ∃ answer, w.answering = some answer ∧ answer.ctrl = ctrl := by
  cases step_transition transition with
  | unknown was absent => exact absurd rfl changed
  | found was stored => simp at changed
  | inspected was => exact absurd rfl changed
  | @completed answer bnotify was =>
      refine ⟨answer, by simp [answering, was], ?_⟩
      by_contra other
      apply changed
      change (w.ch.setEc answer.ctrl _).ctrls ctrl = _
      exact RpcChannel.modify_other _ _ (Ne.symm other)
  | @remarked answer bnotify was =>
      refine ⟨answer, by simp [answering, was], ?_⟩
      by_contra other
      apply changed
      simp only
      split
      · exact RpcChannel.modify_other _ _ (Ne.symm other)
      · rfl
  | _ => cases response

/-- Calls become accepted by their registration only. -/
theorem step_accepted {action : Action} (transition : World.step calls w action = some next)
    (accepted : next.Accepted n) : w.Accepted n ∨ action = .register n := by
  cases step_progress transition n with
  | same same =>
      left
      rwa [Accepted, same] at accepted
  | early was now => exact absurd now accepted.registered
  | register was now is => exact .inr is
  | sent was now => exact .inl (.inl was)
  | failed was now is => exact absurd rfl (accepted.unfailed (.inl now))
  | reset was now => exact absurd rfl (accepted.unfailed (.inr (.inl now)))
  | removed was now => exact absurd rfl (accepted.unfailed (.inr (.inr now)))

/-- No send fails unless the action says so. -/
theorem step_unfailed {action : Action} (unfailed : ¬ (w.pc n).SendFailed)
    (unbroken : action.Unbroken) (transition : World.step calls w action = some next) :
    ¬ (next.pc n).SendFailed := by
  cases step_progress transition n with
  | same same => rwa [same]
  | early was now => rcases now with now | now | now | now | now <;> simp [now, Pc.SendFailed]
  | register was now is => simp [now, Pc.SendFailed]
  | sent was now => simp [now, Pc.SendFailed]
  | @failed ret was now is error =>
      subst is
      exact absurd unbroken error
  | reset was now => exact absurd (.inl was) unfailed
  | removed was now => exact absurd (.inr (.inl was)) unfailed

section Runs

variable (apart : Function.Injective fun n => (calls n).ctrl) (initial : start.Initial)
  (callbacks : ∀ n, (start.ch.ctrls (calls n).ctrl).done = true)
  (runs : (clientMachine calls).Runs start actions w)
  (few : actions.countP Action.draws < 2 ^ 32)
  (unbroken : ∀ action ∈ actions, action.Unbroken)

include initial runs

/-- An accepted call has been registered. -/
theorem runs_registered (accepted : w.Accepted n) : .register n ∈ actions := by
  induction runs with
  | refl => exact absurd (.inl (initial.pc n)) accepted.registered
  | step prior transition ih =>
      rcases step_accepted transition accepted with earlier | rfl
      · exact List.mem_append_left _ (ih earlier)
      · exact List.mem_append_right _ List.mem_cons_self

include unbroken

/-- Without failing sends the loop thread is at work on registered calls only. -/
theorem runs_separate : w.Separate ∧ ∀ n, ¬ (w.pc n).SendFailed := by
  refine runs.guarded (fun w => w.Separate ∧ ∀ n, ¬ (w.pc n).SendFailed) ?_ ?_ (.of_mem unbroken)
  · rintro state action next ⟨separate, unfailed⟩ unbroken transition
    refine ⟨separate.step ?_ transition, fun n => step_unfailed (unfailed n) unbroken transition⟩
    cases action with
    | send n ret => exact fun error => absurd unbroken error
    | respond id code body => exact fun _ => unfailed _
    | close => exact unbroken.elim
    | _ => trivial
  · refine ⟨.of_initial initial, fun n => ?_⟩
    simp [initial.pc, Pc.SendFailed]

include apart callbacks few

/-- Each accepted call is tracked from its registration on. -/
theorem runs_tracks (accepted : w.Accepted n) :
    ∃ id earlier later, actions = earlier ++ .register n :: later ∧
      w.Tracks calls n id (responses id later) := by
  obtain ⟨earlier, later, rfl⟩ := List.append_of_mem (runs_registered initial runs accepted)
  obtain ⟨state, registered, prior, transition, rest⟩ := runs.split_cons
  obtain ⟨unwrapped, here, onward⟩ :=
    (Machine.Along.append prior).mp (runs_unwrapped initial runs few)
  have attributed : state.Attributed calls :=
    prior.guarded (Attributed calls) (fun attributed unwrapped => attributed.step apart unwrapped)
      (.of_initial initial) unwrapped
  have separate := (runs_separate initial prior fun action member =>
    unbroken action (List.mem_append_left _ member)).1
  have attributed' := attributed.step apart here transition
  have quiet : ∀ action ∈ later, action.Unbroken := fun action member =>
    unbroken action (List.mem_append_right _ (List.mem_cons_of_mem _ member))
  have done : ∀ ctrl, (registered.ch.ctrls ctrl).done = (start.ch.ctrls ctrl).done :=
    runs_done (prior.step transition)
  have step : World.step calls state (.register n) = some registered := transition
  cases step_transition step with
  | registerRefused was marked =>
      have refused : w.pc n = .returned (-3) :=
        rest.invariant (fun w => w.pc n = .returned (-3))
          (fun returned transition => step_returned returned transition) (by simp [World.setPc])
      rcases accepted with now | now <;> rw [refused] at now <;> cases now
  | @registerAccepted _ id was drew =>
      refine ⟨id, earlier, later, rfl, ?_⟩
      have along := (onward _ transition).and_mem quiet
      have both := rest.guarded_history (fun actions w => w.Attributed calls ∧
        (w.ch.ctrls (calls n).ctrl).done = true ∧ w.Tracks calls n id (responses id actions))
        ?_ ⟨attributed', ?_, ?_⟩ along
      · exact both.2.2
      · rintro actions state action next ⟨attributed, done, tracks⟩ ⟨unwrapped, unbroken⟩ transition
        refine ⟨attributed.step apart unwrapped transition,
          (step_done transition _).trans done, ?_⟩
        rw [responses_append]
        exact tracks.step attributed apart done unbroken transition
      · rw [done, callbacks]
      · exact .register attributed separate was drew

end Runs

/-- A call that is not accepted has not come to the table or has failed. -/
theorem Separate.unaccepted (separate : w.Separate) (unfailed : ¬ (w.pc n).SendFailed)
    (unaccepted : ¬ w.Accepted n) : (w.pc n).Unregistered := by
  cases pc : w.pc n with
  | idle => exact .inl rfl
  | checked => exact .inr (.inl rfl)
  | marked => exact .inr (.inr (.inl rfl))
  | registered => exact absurd (.inl pc) unaccepted
  | failed => exact absurd (.inl pc) unfailed
  | reset => exact absurd (.inr (.inl pc)) unfailed
  | returned ret =>
      rw [← pc]
      rcases separate.codes n ret pc with rfl | early | failed
      · exact absurd (.inr pc) unaccepted
      · exact early
      · exact absurd failed unfailed

/-- Every accepted call is completed by the first response that carries its id, every
registered notification by each of them; a final close completes what is left. No other
call has its callback run, responses for nobody change nothing, and the others reach only
the controller stored under their id. -/
theorem calls_complete {before finish : World}
    (apart : Function.Injective fun n => (calls n).ctrl) (initial : start.Initial)
    (callbacks : ∀ n, (start.ch.ctrls (calls n).ctrl).done = true)
    (runs : (clientMachine calls).Runs start actions before)
    (few : actions.countP Action.draws < 2 ^ 32)
    (unbroken : ∀ action ∈ actions, action.Unbroken)
    (closes : World.step calls before .close = some finish) :
    (∀ n, before.Accepted n → ∃ id earlier later, actions = earlier ++ .register n :: later ∧
      before.drawn n = some id ∧
      before.firings n =
        (calls n).completions ((responses id later).map (completion calls n)) ∧
      ((calls n).IsNotify → id ∈ before.ch.requests) ∧
      finish.firings n = (calls n).completions
        ((responses id later).map (completion calls n) ++ [closing calls n])) ∧
    (∀ n, ¬ before.Accepted n → finish.firings n = []) ∧
    (∀ w next id code body, World.step calls w (.respond id code body) = some next →
      id ∉ w.ch.requests → next = w) ∧
    (∀ w next action, World.step calls w action = some next → action.OfResponse →
      (∀ ctrl, next.ch.ctrls ctrl ≠ w.ch.ctrls ctrl →
        ∃ answer, w.answering = some answer ∧ answer.ctrl = ctrl) ∧
      ∀ answer, next.answering = some answer → w.answering = some answer ∨
        action = .respond answer.id answer.code answer.body ∧
          w.ch.requests.lookup answer.id = some answer.ctrl) := by
  have attributed := runs_attributed apart initial runs few
  have client : before.ch.serving = false :=
    runs.invariant (fun w => w.ch.serving = false)
      (fun client transition => step_client transition client) initial.client
  have done : ∀ n, (before.ch.ctrls (calls n).ctrl).done = true := fun n =>
    (runs_done runs _).trans (callbacks n)
  obtain ⟨separate, unfailed⟩ := runs_separate initial runs unbroken
  cases step_transition closes with
  | closed was =>
      refine ⟨?_, ?_, fun _ _ _ _ _ transition absent => respond_unknown absent transition,
        fun _ _ _ transition response =>
          ⟨fun _ => response_confined response transition, fun _ => step_answering transition⟩⟩
      · intro n accepted
        obtain ⟨id, earlier, later, same, tracks⟩ :=
          runs_tracks apart initial callbacks runs few unbroken accepted
        have log := tracks.log
        simp only [imminent, was, List.append_nil] at log
        refine ⟨id, earlier, later, same, tracks.drawn, log,
          fun notify => tracks.table.mpr (.inl notify), ?_⟩
        change (before.fired ++ before.closeFirings).filter _ = _
        rw [List.filter_append, tracks.closeFirings attributed done client]
        change before.firings n ++ _ = _
        have table := tracks.table
        rw [log]
        by_cases notify : (calls n).IsNotify
        · simp [table, Call.completions, notify, closing]
        · cases arrived : responses id later with
          | nil => simp [table, arrived, Call.completions, notify, closing]
          | cons first rest => simp [table, arrived, Call.completions, notify]
      · intro n unaccepted
        have early := separate.unaccepted (unfailed n) unaccepted
        refine List.filter_eq_nil_iff.mpr fun firing member => ?_
        simp only [decide_eq_true_eq]
        rintro rfl
        rcases List.mem_append.mp member with earlier | now
        · exact (separate.unregistered _ early).1 ⟨firing, earlier, rfl⟩
        · obtain ⟨id, stored, same⟩ := mem_closeFirings now
          rw [same] at early
          exact separate.entries id stored early

/-- One call is answered twice, another by nobody. -/
theorem calls_complete_twice :
    ∃ before finish, World.step plainCalls before .close = some finish ∧
      (before.Accepted 0 → ∃ id earlier later,
        [Action.check 0, .mark 0, .register 0, .check 1, .mark 1, .send 0 0, .register 1,
          .respond 1 0 [], .inspect, .send 1 0, .complete, .remark, .respond 1 5 []] =
          earlier ++ .register 0 :: later ∧
        before.drawn 0 = some id ∧
        before.firings 0 =
          (plainCalls 0).completions ((responses id later).map (completion plainCalls 0)) ∧
        ((plainCalls 0).IsNotify → id ∈ before.ch.requests) ∧
        finish.firings 0 = (plainCalls 0).completions
          ((responses id later).map (completion plainCalls 0) ++ [closing plainCalls 0])) := by
  have runs : (clientMachine plainCalls).Runs (fresh true)
      [.check 0, .mark 0, .register 0, .check 1, .mark 1, .send 0 0, .register 1,
        .respond 1 0 [], .inspect, .send 1 0, .complete, .remark, .respond 1 5 []] _ := .of_run rfl
  have complete := calls_complete (fun _ _ same => same) (fresh_initial true) (fun _ => rfl)
    runs (by decide) (by simp [Action.Unbroken]) rfl
  exact ⟨_, _, rfl, complete.1 0⟩

end World

end Sdpf.Client
