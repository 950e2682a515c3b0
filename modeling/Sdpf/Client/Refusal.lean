import Sdpf.Client.Registration

/-!
# Registrations the server has refused

Whether a response takes the entry of its request out of the table depends on the mark in
the controller, and on nothing the response says. A notification that the server refuses
keeps its entry and its mark like one it confirms: the callback is told of the refusal, and
a second call for the service is turned away as a repeated one (`refused_outcome`).
-/

namespace Sdpf.Client

open Sdpf.Data Sdpf.Channel Sdpf.Semantics

namespace World

variable {calls : Nat → Call} {w next : World} {n : Nat}

/-- The callback of the call has been run, its entry is gone, and a call for its service
would not be turned away as a repeated one. -/
structure Retryable (calls : Nat → Call) (w : World) (id : UInt32) (n : Nat) : Prop where
  fired : w.Fired n
  removed : id ∉ w.ch.requests
  accepted : ∀ call : Call, call.service = (calls n).service → ¬ w.ch.Repeated call

/-- Notification calls that got past the check of their callback have one. -/
def Heard (calls : Nat → Call) (w : World) : Prop :=
  ∀ n, (calls n).IsNotify → w.pc n = .marked ∨ ¬ (w.pc n).Unregistered →
    (w.ch.ctrls (calls n).ctrl).done = true

/-- Before the first call none has got anywhere. -/
theorem Heard.of_initial (initial : w.Initial) : w.Heard calls := by
  intro n _ past
  simp [initial.pc n, Pc.Unregistered] at past

/-- A call does not stop cleaning up. -/
theorem step_cleansUp {action : Action} (transition : w.step calls action = some next)
    (cleaning : w.CleansUp n) : next.CleansUp n := by
  cases step_progress transition n with
  | same same => exact cleaning.imp same.trans same.trans
  | early was now => rcases was with was | was | was <;> simp [CleansUp, was] at cleaning
  | register was now is => simp [CleansUp, was] at cleaning
  | sent was now => simp [CleansUp, was] at cleaning
  | failed was now is error => simp [CleansUp, was] at cleaning
  | reset was now => simp [CleansUp, was] at cleaning
  | removed was now => exact .inr now

/-- A call that has been registered stays so. -/
theorem advance_registered {action : Action} (transition : w.advance calls action = some next)
    (registered : ¬ (w.pc n).Unregistered) : ¬ (next.pc n).Unregistered := by
  rcases advance_cases transition with taken | ⟨m, was, rfl⟩
  · exact step_registered taken registered
  · exact setPc_registered (by simp [Pc.Unregistered]) registered

/-- A call does not stop cleaning up, and returning is no cleaning up. -/
theorem advance_cleansUp {action : Action} (transition : w.advance calls action = some next)
    (cleaning : w.CleansUp n) : next.CleansUp n := by
  rcases advance_cases transition with taken | ⟨m, was, rfl⟩
  · exact step_cleansUp taken cleaning
  · have other : n ≠ m := by
      rintro rfl
      simp [CleansUp, was] at cleaning
    simpa [CleansUp, World.setPc, other] using cleaning

/-- An entry with a mark leaves the table with `on_close` only. -/
theorem step_kept {action : Action} {id : UInt32} {ctrl : Nat}
    (stored : w.ch.requests.lookup id = some ctrl) (marks : (w.ch.ctrls ctrl).ec ≠ 0)
    (unclosed : action ≠ .close) (transition : w.step calls action = some next) :
    id ∈ next.ch.requests := by
  have member := mem_of_lookup stored
  have kept : ∀ other, id ∈ (w.ch.removeRequest other).2.requests := by
    intro other
    by_cases same : id = other
    · subst same
      rw [RpcChannel.removeRequest_notify stored marks]
      exact member
    · exact (RpcChannel.removeRequest_mem_iff _ same).mpr member
  cases step_transition transition with
  | registerAccepted was drew => exact (AList.mem_insert _).mpr (.inr member)
  | @removed _ other was drew => exact kept other
  | @found other _ _ _ was stored => exact kept other
  | remarked was =>
      simp only
      split <;> exact member
  | closed was => exact absurd rfl unclosed
  | _ => exact member

/-- A call becomes marked by its own step. -/
theorem step_marked {action : Action} (transition : w.step calls action = some next)
    (now : next.pc n = .marked) : w.pc n = .marked ∨ action = .mark n := by
  cases step_transition transition with
  | checkRefused was => exact .inl (setPc_marked (by simp) now).2
  | checkPassed was => exact .inl (setPc_marked (by simp) now).2
  | markRefused was => exact .inl (setPc_marked (by simp) now).2
  | @markAccepted m change was =>
      by_cases same : n = m
      · exact .inr (same ▸ rfl)
      · exact .inl (by simpa [World.setPc, same] using now)
  | registerRefused was => exact .inl (setPc_marked (by simp) now).2
  | registerAccepted was => exact .inl (setPc_marked (by simp) now).2
  | sent was => exact .inl (setPc_marked (by simp) now).2
  | sendFailed was => exact .inl (setPc_marked (by simp) now).2
  | reset was => exact .inl (setPc_marked (by simp) now).2
  | removed was => exact .inl (setPc_marked (by simp) now).2
  | _ => exact .inl now

/-- A notification call without a callback is not marked. -/
theorem step_heard (transition : w.step calls (.mark n) = some next) (now : next.pc n = .marked)
    (notify : (calls n).IsNotify) : (w.ch.ctrls (calls n).ctrl).done = true := by
  simp only [World.step] at transition
  split_ifs at transition
  cases accepted : w.ch.mark (calls n) with
  | none =>
      simp only [accepted] at transition
      cases transition
      simp [World.setPc] at now
  | some marked =>
      obtain ⟨_, _, _, _, done⟩ := RpcChannel.mark_some accepted
      exact done notify

/-- A step keeps the callbacks of the notification calls. -/
theorem Heard.step {action : Action} (heard : w.Heard calls)
    (transition : w.step calls action = some next) : next.Heard calls := by
  intro n notify past
  rw [step_done transition]
  cases step_progress transition n with
  | same same => exact heard n notify (by rwa [same] at past)
  | early was unregistered =>
      have now := past.resolve_right fun registered => registered unregistered
      rcases step_marked transition now with marked | rfl
      · exact heard n notify (.inl marked)
      · exact step_heard transition now notify
  | register was now is => exact heard n notify (.inl was)
  | sent was now => exact heard n notify (.inr (by simp [was, Pc.Unregistered]))
  | failed was now is error => exact heard n notify (.inr (by simp [was, Pc.Unregistered]))
  | reset was now => exact heard n notify (.inr (by simp [was, Pc.Unregistered]))
  | removed was now => exact heard n notify (.inr (by simp [was, Pc.Unregistered]))

/-- So does the return of a synchronous call. -/
theorem Heard.advance {action : Action} (heard : w.Heard calls)
    (transition : w.advance calls action = some next) : next.Heard calls := by
  rcases advance_cases transition with taken | ⟨m, was, rfl⟩
  · exact heard.step taken
  · intro n notify past
    by_cases same : n = m
    · exact heard n notify (.inr (by simp [same, was, Pc.Unregistered]))
    · exact heard n notify (by simpa [World.setPc, same] using past)

/-- The loop thread is at work on a response with an error code for a registered
notification. -/
structure Refusing (calls : Nat → Call) (w : World) (answer : Answer) : Prop where
  marked : w.Marked calls
  heard : w.Heard calls
  answering : w.answering = some answer
  ctrl : answer.ctrl = (calls answer.call).ctrl
  registered : ¬ (w.pc answer.call).Unregistered
  fired : (∃ bnotify, w.phase = .completed answer bnotify) → w.Fired answer.call
  kept : w.owner answer.id = answer.call → ¬ w.CleansUp answer.call → answer.id ∈ w.ch.requests

section Response

variable {answer : Answer}

/-- While the error code is told, the entry keeps a mark of some kind. -/
theorem Refusing.marks (refusing : w.Refusing calls answer) (refused : answer.code ≠ 0)
    (notify : (calls answer.call).IsNotify) (owner : w.owner answer.id = answer.call)
    (sound : ¬ w.CleansUp answer.call) :
    ∃ ctrl, w.ch.requests.lookup answer.id = some ctrl ∧ (w.ch.ctrls ctrl).ec ≠ 0 := by
  have member := refusing.kept owner sound
  obtain ⟨ctrl, stored⟩ := lookup_of_mem member
  obtain ⟨rfl, _⟩ := refusing.marked.entry _ ctrl stored
  have standing := refusing.marked.standing _ member (owner ▸ notify) (owner ▸ sound)
  refine ⟨_, stored, standing.marked.resolve_right fun succeeding => ?_⟩
  -- the only answer at hand is the refusal, which leaves no code 0
  have now := refusing.answering
  unfold Succeeding at succeeding
  cases phase : w.phase with
  | completed other bnotify =>
      simp only [World.answering, phase, Option.some.injEq] at now
      subst now
      rw [phase] at succeeding
      exact refused (RpcChannel.outcome_zero succeeding.2)
  | _ => simp [phase, Phase.Succeeding] at succeeding

/-- Until the loop thread is done with it, the response is the one at hand. -/
theorem step_answering_kept {action : Action} (now : w.answering = some answer)
    (unfinished : action ≠ .remark) (transition : w.step calls action = some next) :
    next.answering = some answer := by
  cases step_transition transition with
  | found was => simp [answering, was] at now
  | inspected was => simpa [answering, was] using now
  | completed was => simpa [answering, was] using now
  | remarked was => exact absurd rfl unfinished
  | closed was => simp [answering, was] at now
  | _ => exact now

/-- An accepted call does not come to the table again. -/
theorem step_owner {action : Action} {id : UInt32} (registered : ¬ (w.pc n).Unregistered)
    (transition : w.step calls action = some next) (now : next.owner id = n) :
    w.owner id = n := by
  cases step_transition transition with
  | @registerAccepted m other was drew =>
      by_cases same : id = other
      · subst same
        obtain rfl : m = n := by simpa using now
        exact absurd (.inr (.inr (.inl was))) registered
      · simpa [same] using now
  | _ => exact now

/-- The callback is run when the error code has been set. -/
theorem Refusing.step_fired {action : Action} {bnotify : Bool}
    (refusing : w.Refusing calls answer) (notify : (calls answer.call).IsNotify)
    (unfinished : action ≠ .remark) (transition : w.step calls action = some next)
    (completed : next.phase = .completed answer bnotify) : next.Fired answer.call := by
  have now := refusing.answering
  cases step_transition transition with
  | @completed other _ was =>
      obtain rfl : other = answer := by simpa [World.answering, was] using now
      have done := refusing.heard _ notify (.inr refusing.registered)
      rw [← refusing.ctrl] at done
      have told : w.answerFiring other = [⟨other.call, other.ctrl,
          RpcChannel.outcome (w.ch.ctrls other.ctrl).resp other.code other.body, other.body⟩] :=
        if_pos done
      exact ⟨_, List.mem_append_right _ (told ▸ List.mem_singleton_self _), rfl⟩
  | found was => cases completed
  | inspected was => cases completed
  | remarked was => exact absurd rfl unfinished
  | closed was => simp [World.answering, was] at now
  | _ => exact refusing.fired ⟨_, completed⟩

/-- A step of any thread, except the one that ends the work on the response. -/
theorem Refusing.step {action : Action} (refusing : w.Refusing calls answer)
    (apart : Function.Injective fun n => (calls n).ctrl) (refused : answer.code ≠ 0)
    (notify : (calls answer.call).IsNotify) (unfinished : action ≠ .remark)
    (transition : w.step calls action = some next) : next.Refusing calls answer := by
  have unclosed : action ≠ .close := by
    rintro rfl
    cases step_transition transition with
    | closed was =>
        have now := refusing.answering
        simp [World.answering, was] at now
  exact {
    marked := refusing.marked.step apart transition
    heard := refusing.heard.step transition
    answering := step_answering_kept refusing.answering unfinished transition
    ctrl := refusing.ctrl
    registered := step_registered transition refusing.registered
    fired := by
      rintro ⟨bnotify, completed⟩
      exact refusing.step_fired notify unfinished transition completed
    kept := fun owner sound => by
      have ownerBefore := step_owner refusing.registered transition owner
      obtain ⟨ctrl, stored, marks⟩ := refusing.marks refused notify ownerBefore
        fun cleaning => sound (step_cleansUp transition cleaning)
      exact step_kept stored marks unclosed transition }

/-- Any step, the return of a synchronous call included. -/
theorem Refusing.advance {action : Action} (refusing : w.Refusing calls answer)
    (apart : Function.Injective fun n => (calls n).ctrl) (refused : answer.code ≠ 0)
    (notify : (calls answer.call).IsNotify) (unfinished : action ≠ .remark)
    (transition : w.advance calls action = some next) : next.Refusing calls answer := by
  rcases advance_cases transition with taken | ⟨m, was, rfl⟩
  · exact refusing.step apart refused notify unfinished taken
  · exact { refusing with
      marked := refusing.marked.advance apart transition
      heard := refusing.heard.advance transition
      registered := advance_registered transition refusing.registered
      kept := fun owner sound => refusing.kept owner fun cleaning =>
        sound (advance_cleansUp transition cleaning) }

/-- The response has found the entry of a notification. -/
theorem Refusing.of_respond {id : UInt32} {code : Int32} {body : List UInt8} {ctrl : Nat}
    (marked : w.Marked calls) (heard : w.Heard calls)
    (apart : Function.Injective fun n => (calls n).ctrl)
    (stored : w.ch.requests.lookup id = some ctrl)
    (notify : (calls (w.owner id)).IsNotify)
    (transition : w.step calls (.respond id code body) = some next) :
    next.Refusing calls ⟨id, w.owner id, ctrl, code, body⟩ := by
  have member := mem_of_lookup stored
  obtain ⟨same, past⟩ := marked.entry id ctrl stored
  obtain ⟨idle, phase⟩ : w.phase = .idle ∧
      next.phase = .found ⟨id, w.owner id, ctrl, code, body⟩ := by
    cases step_transition transition with
    | unknown was absent => simp [stored] at absent
    | found was found =>
        obtain rfl : ctrl = _ := Option.some.inj (stored.symm.trans found)
        exact ⟨was, rfl⟩
  have kept : ¬ next.CleansUp (w.owner id) → id ∈ next.ch.requests := by
    intro sound
    have standing := marked.standing id member notify fun cleaning =>
      sound (step_cleansUp transition cleaning)
    have marks := standing.marked.resolve_right (by simp [Succeeding, idle, Phase.Succeeding])
    refine step_kept stored (same ▸ marks) ?_ transition
    simp
  exact {
    marked := marked.step apart transition
    heard := heard.step transition
    answering := by simp [World.answering, phase]
    ctrl := same
    registered := step_registered transition past
    fired := by simp [phase]
    kept := fun _ => kept }

/-- Whatever the threads do until the loop thread is done with the response. -/
theorem Refusing.run {finish : World} {during : List Action} (refusing : w.Refusing calls answer)
    (apart : Function.Injective fun n => (calls n).ctrl) (refused : answer.code ≠ 0)
    (notify : (calls answer.call).IsNotify) (unfinished : .remark ∉ during)
    (runs : (mixedMachine calls).Runs w during finish) : finish.Refusing calls answer := by
  have along : (mixedMachine calls).Along (fun _ action => action ≠ .remark) w during :=
    .of_mem fun _ member same => unfinished (same ▸ member)
  exact runs.guarded (fun w => w.Refusing calls answer)
    (fun here unfinished => here.advance apart refused notify unfinished) refusing along

/-- The callback has been told, and the scan still finds the registration. -/
theorem Refusing.finished (refusing : w.Refusing calls answer)
    (apart : Function.Injective fun n => (calls n).ctrl)
    (notify : (calls answer.call).IsNotify)
    (transition : w.step calls .remark = some next)
    (owner : next.owner answer.id = answer.call) (sound : ¬ next.CleansUp answer.call) :
    next.Fired answer.call ∧ answer.id ∈ next.ch.requests ∧
      ∀ call : Call, call.service = (calls answer.call).service → next.ch.Repeated call := by
  have marked := refusing.marked.step apart transition
  have ownerBefore := step_owner refusing.registered transition owner
  have kept := refusing.kept ownerBefore fun cleaning =>
    sound (step_cleansUp transition cleaning)
  obtain ⟨idle, member, fired⟩ : next.phase = .idle ∧ answer.id ∈ next.ch.requests ∧
      next.Fired answer.call := by
    have now := refusing.answering
    cases step_transition transition with
    | @remarked other bnotify was =>
        obtain rfl : other = answer := by simpa [World.answering, was] using now
        refine ⟨rfl, ?_, refusing.fired ⟨_, was⟩⟩
        simp only
        split <;> exact kept
  refine ⟨fired, member, fun call service => marked.repeated ⟨member, ?_, ?_⟩ ?_ ?_⟩
  · exact owner ▸ notify
  · rw [owner, service]
  · exact owner ▸ sound
  · simp [Succeeding, idle, Phase.Succeeding]

end Response

/-- A registration that the server refuses cannot be retried: when the response has been
processed and the request is still its own, the callback has been run, and the entry is
there and turns away every call for the service. -/
theorem refused_outcome (apart : Function.Injective fun n => (calls n).ctrl)
    {start arrived busy finish : World} {before during : List Action} {id : UInt32}
    {code : Int32} {body : List UInt8} {service : CStr} (initial : start.Initial)
    (runs : (mixedMachine calls).Runs start before w) (registers : w.Registers calls id service)
    (refused : code ≠ 0) (arrives : w.step calls (.respond id code body) = some arrived)
    (works : (mixedMachine calls).Runs arrived during busy) (unfinished : .remark ∉ during)
    (finishes : busy.step calls .remark = some finish) (owner : finish.owner id = w.owner id)
    (sound : ¬ finish.CleansUp (w.owner id)) :
    finish.Fired (w.owner id) ∧ id ∈ finish.ch.requests ∧
      ∀ call : Call, call.service = service → finish.ch.Repeated call := by
  obtain ⟨member, notify, rfl⟩ := registers
  obtain ⟨ctrl, stored⟩ := lookup_of_mem member
  have reached : w.Marked calls ∧ w.Heard calls :=
    runs.invariant (fun w => w.Marked calls ∧ w.Heard calls)
      (fun here taken => ⟨here.1.advance apart taken, here.2.advance taken⟩)
      ⟨.of_initial initial, .of_initial initial⟩
  have refusing := Refusing.of_respond reached.1 reached.2 apart stored notify arrives
  exact (refusing.run apart refused notify unfinished works).finished apart notify finishes
    owner sound

/-- Where every call has a controller of its own, a response with an error code never makes a
registered notification retryable, as long as its request is not taken away by its own call or
replaced. -/
theorem refused_never_retryable (apart : Function.Injective fun n => (calls n).ctrl)
    {start arrived busy finish : World} {before during : List Action} {id : UInt32}
    {code : Int32} {body : List UInt8} {service : CStr} (initial : start.Initial)
    (runs : (mixedMachine calls).Runs start before w) (registers : w.Registers calls id service)
    (refused : code ≠ 0) (arrives : w.step calls (.respond id code body) = some arrived)
    (works : (mixedMachine calls).Runs arrived during busy) (unfinished : .remark ∉ during)
    (finishes : busy.step calls .remark = some finish) (owner : finish.owner id = w.owner id)
    (sound : ¬ finish.CleansUp (w.owner id)) :
    ¬ finish.Retryable calls id (w.owner id) ∧
      ∀ call : Call, call.service = service → finish.ch.Repeated call := by
  obtain ⟨-, member, repeated⟩ := refused_outcome apart initial runs registers refused arrives
    works unfinished finishes owner sound
  exact ⟨fun retryable => retryable.removed member, repeated⟩

/-- The server answers the first registration with code 1001. -/
theorem refused_run :
    ∃ w arrived busy finish : World,
      (mixedMachine subscribers).Runs (fresh true) [.check 0, .mark 0, .register 0, .send 0 0] w ∧
      w.owner 1 = 0 ∧ w.Registers subscribers 1 ⟨[100], by decide⟩ ∧
      w.step subscribers (.respond 1 1001 []) = some arrived ∧
      (mixedMachine subscribers).Runs arrived [.inspect, .complete] busy ∧
      busy.step subscribers .remark = some finish ∧
      finish.owner 1 = 0 ∧ finish.pc 0 = .returned 0 ∧ 1 ∈ finish.ch.requests := by
  obtain ⟨w, runs, seen⟩ := @Machine.Runs.of_map _ _ (mixedMachine subscribers) _
    (fun w => (w.ch.requests.keys, w.owner 1,
      ((mixedMachine subscribers).run w [.respond 1 1001 [], .inspect, .complete, .remark]).map
        fun finish => (finish.ch.requests.keys, finish.owner 1, finish.pc 0)))
    (fresh true) [.check 0, .mark 0, .register 0, .send 0 0]
    ([1], 0, some ([1], 0, .returned 0)) (by decide +kernel)
  simp only [Machine.run, Prod.mk.injEq, Option.map_eq_some_iff, Option.bind_eq_some_iff,
    Option.some.injEq] at seen
  obtain ⟨table, first, _, ⟨arrived, arrives, inspected, inspects, busy, completes, finish,
    finishes, rfl⟩, left, owner, returned⟩ := seen
  have works := Machine.Runs.cons inspects (.cons completes .refl)
  refine ⟨w, arrived, busy, finish, runs, first, ⟨?_, ?_, rfl⟩, arrives, works, finishes, owner,
    returned, ?_⟩
  · exact AList.mem_keys.mpr (by simp [table])
  · exact (strcmp_eq_zero _ _).mpr rfl
  · exact AList.mem_keys.mpr (by simp [left])

/-- The subscriber that is refused cannot register again. -/
theorem refused_never_retryable_subscriber :
    ∃ finish : World, ¬ finish.Retryable subscribers 1 0 ∧
      ∀ call : Call, call.service = ⟨[100], by decide⟩ → finish.ch.Repeated call := by
  obtain ⟨w, arrived, busy, finish, runs, first, registers, arrives, works, finishes, owner,
    returned, -⟩ := refused_run
  refine ⟨finish, first ▸ refused_never_retryable (fun _ _ same => same) (fresh_initial true) runs
    registers (by decide) arrives works (by decide) finishes (owner.trans first.symm) ?_⟩
  simp [first, CleansUp, returned]

/-- The entry of a refused registration stays. -/
theorem refused_not_retryable :
    ¬ ∀ (calls : Nat → Call), (Function.Injective fun n => (calls n).ctrl) →
      ∀ (start w arrived busy finish : World) (before during : List Action) (id : UInt32)
        (code : Int32) (body : List UInt8) (service : CStr), start.Initial →
        (mixedMachine calls).Runs start before w → w.Registers calls id service → code ≠ 0 →
        w.step calls (.respond id code body) = some arrived →
        (mixedMachine calls).Runs arrived during busy → .remark ∉ during →
        busy.step calls .remark = some finish → finish.owner id = w.owner id →
        ¬ finish.CleansUp (w.owner id) → finish.Retryable calls id (w.owner id) := by
  intro retried
  obtain ⟨w, arrived, busy, finish, runs, first, registers, arrives, works, finishes, owner,
    returned, member⟩ := refused_run
  have retryable := retried subscribers (fun _ _ same => same) _ w arrived busy finish _ _ 1 1001
    [] _ (fresh_initial true) runs registers (by decide) arrives works (by decide) finishes
    (owner.trans first.symm) (by simp [first, CleansUp, returned])
  exact retryable.removed member

end World

end Sdpf.Client
