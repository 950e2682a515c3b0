import Sdpf.Client.Interleaving

/-!
# One outcome of an asynchronous call

A call whose send fails takes its entry back, but by then the loop thread may have
answered or closed it, or may do so in the meantime: the caller is told that the call
failed and its callback runs all the same. `one_outcome` shows that nothing else gives a
call two outcomes.
-/

namespace Sdpf.Client

open Sdpf.Data Sdpf.Channel Sdpf.Semantics

namespace World

/-- No call returns an error and has its callback run. -/
def OneOutcome (w : World) : Prop :=
  ∀ n ret, w.pc n = .returned ret → ret ≠ 0 → ¬ w.Fired n

/-- A send fails only for a call that nobody has answered, and neither a response nor
`on_close` reaches the entry of a call whose send has failed. -/
def Orderly (w : World) : Action → Prop
  | .send n ret => ret ≠ 0 → ¬ w.Fired n ∧ ¬ w.Completing n
  | .respond id _ _ => id ∈ w.ch.requests → ¬ (w.pc (w.owner id)).SendFailed
  | .close => ∀ id ∈ w.ch.requests, ¬ (w.pc (w.owner id)).SendFailed
  | _ => True

/-- A call that failed or has not come to the table is left alone by the loop thread. -/
structure Separate (w : World) : Prop where
  failed : ∀ n, (w.pc n).SendFailed → ¬ w.Fired n ∧ ¬ w.Completing n
  unregistered : ∀ n, (w.pc n).Unregistered → ¬ w.Fired n ∧ ¬ w.Completing n
  entries : ∀ id ∈ w.ch.requests, ¬ (w.pc (w.owner id)).Unregistered
  codes : ∀ n ret, w.pc n = .returned ret →
    ret = 0 ∨ (w.pc n).Unregistered ∨ (w.pc n).SendFailed

variable {calls : Nat → Call} {w next : World}

/-- Before the first call no outcome is there. -/
theorem Separate.of_initial (initial : w.Initial) : w.Separate := by
  refine ⟨?_, ?_, ?_, ?_⟩
  · intro n failed
    rw [initial.pc] at failed
    exact absurd failed (by simp [Pc.SendFailed])
  · intro n _
    simp [Fired, Completing, initial.fired, initial.phase]
  · intro id stored
    rw [initial.requests] at stored
    exact absurd stored (AList.notMem_empty id)
  · intro n ret returned
    rw [initial.pc] at returned
    cases returned

/-- A call that has failed has not had its callback run. -/
theorem Separate.oneOutcome (separate : w.Separate) : w.OneOutcome := by
  intro n ret returned error
  rcases separate.codes n ret returned with zero | unregistered | failed
  · exact absurd zero error
  · exact (separate.unregistered n unregistered).1
  · exact (separate.failed n failed).1

/-- A call moves on without adding to the table or running a callback. -/
theorem Separate.advance {n : Nat} {pc : Pc} (separate : w.Separate)
    (pcs : next.pc = Function.update w.pc n pc)
    (requests : ∀ id ∈ next.ch.requests, id ∈ w.ch.requests)
    (owner : next.owner = w.owner) (phase : next.phase = w.phase) (fired : next.fired = w.fired)
    (failed : pc.SendFailed → ¬ w.Fired n ∧ ¬ w.Completing n)
    (unregistered : pc.Unregistered → (w.pc n).Unregistered)
    (code : ∀ ret, pc = .returned ret → ret = 0 ∨ pc.Unregistered ∨ pc.SendFailed) :
    next.Separate := by
  have untouched : ∀ m, (next.Fired m ↔ w.Fired m) ∧ (next.Completing m ↔ w.Completing m) := by
    intro m
    simp [Fired, Completing, phase, fired]
  refine ⟨?_, ?_, ?_, ?_⟩
  · intro m atM
    rw [(untouched m).1, (untouched m).2]
    rw [pcs] at atM
    by_cases same : m = n
    · subst same
      rw [Function.update_self] at atM
      exact failed atM
    · rw [Function.update_of_ne same] at atM
      exact separate.failed m atM
  · intro m atM
    rw [(untouched m).1, (untouched m).2]
    rw [pcs] at atM
    by_cases same : m = n
    · subst same
      rw [Function.update_self] at atM
      exact separate.unregistered m (unregistered atM)
    · rw [Function.update_of_ne same] at atM
      exact separate.unregistered m atM
  · intro id stored here
    rw [pcs, owner] at here
    apply separate.entries id (requests id stored)
    by_cases same : w.owner id = n
    · rw [same, Function.update_self] at here
      rw [same]
      exact unregistered here
    · rwa [Function.update_of_ne same] at here
  · intro m ret returned
    rw [pcs] at returned ⊢
    by_cases same : m = n
    · subst same
      rw [Function.update_self] at returned ⊢
      exact code ret returned
    · rw [Function.update_of_ne same] at returned ⊢
      exact separate.codes m ret returned

/-- The loop thread moves on: whatever it has now answered or is answering belongs to a
call that is registered and whose send has not failed. -/
theorem Separate.process (separate : w.Separate) (pcs : next.pc = w.pc)
    (owner : next.owner = w.owner) (requests : ∀ id ∈ next.ch.requests, id ∈ w.ch.requests)
    (touched : ∀ n, next.Fired n ∨ next.Completing n → w.Fired n ∨ w.Completing n ∨
      (¬ (w.pc n).Unregistered ∧ ¬ (w.pc n).SendFailed)) :
    next.Separate := by
  refine ⟨?_, ?_, ?_, ?_⟩
  · intro n failed
    rw [pcs] at failed
    have apart := separate.failed n failed
    rw [← not_or]
    intro now
    rcases touched n now with before | before | clear
    · exact apart.1 before
    · exact apart.2 before
    · exact clear.2 failed
  · intro n unregistered
    rw [pcs] at unregistered
    have apart := separate.unregistered n unregistered
    rw [← not_or]
    intro now
    rcases touched n now with before | before | clear
    · exact apart.1 before
    · exact apart.2 before
    · exact clear.1 unregistered
  · intro id stored
    rw [pcs, owner]
    exact separate.entries id (requests id stored)
  · intro n ret
    rw [pcs]
    exact separate.codes n ret

/-- A call enters the table. -/
theorem Separate.enter {n : Nat} {id : UInt32} {ctrl : Nat} (separate : w.Separate)
    (was : w.pc n = .marked) :
    { w.setPc n .registered with
      ch := { w.ch with requests := w.ch.requests.insert id ctrl }
      owner := Function.update w.owner id n : World }.Separate := by
  refine ⟨?_, ?_, ?_, ?_⟩
  · intro m failed
    by_cases same : m = n
    · subst same
      simp [setPc, Pc.SendFailed] at failed
    · simp only [setPc, Function.update_of_ne same] at failed
      exact separate.failed m failed
  · intro m unregistered
    by_cases same : m = n
    · subst same
      simp [setPc, Pc.Unregistered] at unregistered
    · simp only [setPc, Function.update_of_ne same] at unregistered
      exact separate.unregistered m unregistered
  · intro other stored
    by_cases own : other = id
    · subst own
      simp [setPc, Pc.Unregistered]
    · have earlier : other ∈ w.ch.requests := by
        simpa [own] using stored
      have registered := separate.entries other earlier
      have distinct : w.owner other ≠ n := by
        intro same
        apply registered
        rw [same, was]
        simp [Pc.Unregistered]
      simpa [setPc, Function.update_of_ne own, Function.update_of_ne distinct] using registered
  · intro m ret returned
    by_cases same : m = n
    · subst same
      simp [setPc] at returned
    · simp only [setPc, Function.update_of_ne same] at returned ⊢
      exact separate.codes m ret returned

/-- Who is called back when an answer is completed. -/
theorem mem_answerFiring {answer : Answer} {firing : Firing}
    (member : firing ∈ w.answerFiring answer) : firing.call = answer.call := by
  unfold answerFiring at member
  split at member
  · rw [List.mem_singleton.mp member]
  · cases member

/-- Who is called back when the channel is closed. -/
theorem mem_closeFirings {firing : Firing} (member : firing ∈ w.closeFirings) :
    ∃ id ∈ w.ch.requests, firing.call = w.owner id := by
  unfold closeFirings at member
  split at member
  · cases member
  · obtain ⟨⟨id, ctrl⟩, entry, fires⟩ := List.mem_filterMap.mp member
    refine ⟨id, List.mem_keys_of_mem entry, ?_⟩
    split at fires
    · cases fires
      rfl
    · cases fires

/-- An orderly step keeps the calls that failed apart from those completed. -/
theorem Separate.step {action : Action} (separate : w.Separate) (orderly : w.Orderly action)
    (transition : World.step calls w action = some next) : next.Separate := by
  cases step_transition transition with
  | checkRefused was error =>
      refine separate.advance rfl (fun _ stored => stored) rfl rfl rfl ?_ ?_ ?_
      · rcases error with rfl | rfl <;> simp [Pc.SendFailed]
      · intro _
        simp [was, Pc.Unregistered]
      · intro ret same
        cases same
        rcases error with rfl | rfl <;> simp [Pc.Unregistered]
  | checkPassed was connected =>
      refine separate.advance rfl (fun _ stored => stored) rfl rfl rfl ?_ ?_ ?_ <;>
        simp [was, Pc.Unregistered, Pc.SendFailed]
  | markRefused was =>
      refine separate.advance rfl (fun _ stored => stored) rfl rfl rfl ?_ ?_ ?_ <;>
        simp [was, Pc.Unregistered, Pc.SendFailed]
  | markAccepted was doneKept marks resp =>
      refine separate.advance rfl (fun _ stored => stored) rfl rfl rfl ?_ ?_ ?_ <;>
        simp [was, Pc.Unregistered, Pc.SendFailed]
  | registerRefused was marked =>
      refine separate.advance rfl (fun _ stored => stored) rfl rfl rfl ?_ ?_ ?_ <;>
        simp [was, Pc.Unregistered, Pc.SendFailed]
  | registerAccepted was drew => exact separate.enter was
  | sent was connected =>
      refine separate.advance rfl (fun _ stored => stored) rfl rfl rfl ?_ ?_ ?_ <;>
        simp [Pc.Unregistered, Pc.SendFailed]
  | sendFailed was error =>
      refine separate.advance rfl (fun _ stored => stored) rfl rfl rfl ?_ ?_ ?_
      · exact fun _ => orderly error
      · simp [Pc.Unregistered]
      · simp
  | reset was =>
      refine separate.advance rfl (fun _ stored => stored) rfl rfl rfl ?_ ?_ ?_
      · exact fun _ => separate.failed _ (.inl was)
      · simp [Pc.Unregistered]
      · simp
  | removed was drew =>
      refine separate.advance rfl (fun _ => RpcChannel.removeRequest_mem _) rfl rfl rfl ?_ ?_ ?_
      · exact fun _ => separate.failed _ (.inr (.inl was))
      · simp [Pc.Unregistered]
      · simp [Pc.SendFailed]
  | unknown was absent => exact separate
  | @found id code body ctrl was stored =>
      have member : id ∈ w.ch.requests := mem_of_lookup stored
      refine separate.process rfl rfl (fun _ => RpcChannel.removeRequest_mem _) ?_
      rintro n (fired | completing)
      · exact .inl fired
      · obtain rfl : w.owner id = n := completing
        exact .inr (.inr ⟨separate.entries id member, orderly member⟩)
  | @inspected answer was =>
      refine separate.process rfl rfl (fun _ stored => stored) ?_
      rintro n (fired | completing)
      · exact .inl fired
      · exact .inr (.inl (by simpa [Completing, was] using completing))
  | @completed answer bnotify was =>
      refine separate.process rfl rfl (fun _ stored => stored) ?_
      rintro n (⟨firing, member, rfl⟩ | completing)
      · rcases List.mem_append.mp member with earlier | now
        · exact .inl ⟨firing, earlier, rfl⟩
        · exact .inr (.inl (by simp [Completing, was, mem_answerFiring now]))
      · exact absurd completing (by simp [Completing])
  | remarked was =>
      refine separate.process rfl rfl ?_ ?_
      · intro id stored
        split at stored <;> exact stored
      · rintro n (fired | completing)
        · exact .inl fired
        · exact absurd completing (by simp [Completing])
  | connection => exact separate.process rfl rfl (fun _ stored => stored) fun n now =>
      now.imp_right .inl
  | closed was =>
      refine separate.process rfl rfl ?_ ?_
      · intro id stored
        exact absurd stored (AList.notMem_empty id)
      · rintro n (⟨firing, member, rfl⟩ | completing)
        · rcases List.mem_append.mp member with earlier | now
          · exact .inl ⟨firing, earlier, rfl⟩
          · obtain ⟨id, stored, call⟩ := mem_closeFirings now
            rw [call]
            exact .inr (.inr ⟨separate.entries id stored, orderly id stored⟩)
        · exact .inr (.inl completing)

/-- As long as sends fail only for calls nobody has answered, and nobody answers a call
whose send has failed, no call has two outcomes. -/
theorem one_outcome {start finish : World} {actions : List Action} (initial : start.Initial)
    (runs : (clientMachine calls).Runs start actions finish)
    (orderly : (clientMachine calls).Along Orderly start actions) : finish.OneOutcome :=
  (runs.guarded Separate (fun separate => separate.step) (.of_initial initial) orderly).oneOutcome

/-- Two calls of which the first fails to be sent while the second is being answered; the
connection is closed afterwards. -/
private def answeredBetween : List Action :=
  [.check 0, .mark 0, .register 0, .check 1, .mark 1, .register 1, .send 1 0, .respond 2 0 [],
    .inspect, .send 0 (-3), .complete, .reset 0, .remark, .remove 0, .connection false, .close]

/-- The call that fails has no other outcome, and neither has the one that is answered. -/
theorem one_outcome_between :
    ∃ finish, (clientMachine plainCalls).Runs (fresh true) answeredBetween finish ∧
      finish.pc 0 = .returned (-4) ∧ finish.pc 1 = .returned 0 ∧
      finish.fired.map Firing.call = [1] ∧ finish.OneOutcome := by
  have runs : (clientMachine plainCalls).Runs (fresh true) answeredBetween _ := .of_run rfl
  have unanswered : ∀ (w : World) (answer : Answer) (bnotify : Bool), w.fired = [] →
      w.phase = .inspected answer bnotify → answer.call = 1 → ¬ w.Fired 0 ∧ ¬ w.Completing 0 :=
    fun w answer bnotify silent inspected other => by simp [Fired, Completing, silent, inspected,
      other]
  have sent : ¬ (Pc.returned 0).SendFailed := by simp [Pc.SendFailed]
  refine ⟨_, runs, rfl, rfl, rfl, one_outcome (fresh_initial true) runs ?_⟩
  refine .cons trivial rfl (.cons trivial rfl (.cons trivial rfl (.cons trivial rfl
    (.cons trivial rfl (.cons trivial rfl (.cons (fun failed => absurd rfl failed) rfl ?_))))))
  refine .cons (fun _ => sent) rfl (.cons trivial rfl (.cons (fun _ => ?_) rfl ?_))
  · exact unanswered _ _ _ rfl rfl rfl
  · refine .cons trivial rfl (.cons trivial rfl (.cons trivial rfl (.cons trivial rfl
      (.cons trivial rfl (.cons (fun id stored => ?_) rfl trivial)))))
    exact absurd stored (AList.notMem_empty id)

/-- The connection is closed between the registration of a call and its send: the
callback runs, and the call returns -4. -/
theorem not_one_outcome :
    ¬ ∀ (calls : Nat → Call) (start finish : World) (actions : List Action), start.Initial →
      (clientMachine calls).Runs start actions finish → finish.OneOutcome := by
  intro outcome
  have closed := outcome plainCalls (fresh true) _
    [.check 0, .mark 0, .register 0, .connection false, .close, .send 0 (-3), .reset 0, .remove 0]
    (fresh_initial true) (.of_run rfl)
  exact closed 0 (-4) rfl (by decide) ⟨_, List.mem_singleton_self _, rfl⟩

end World

end Sdpf.Client
