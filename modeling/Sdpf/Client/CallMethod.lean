import Sdpf.Client.Channel

/-!
# One call of `call_method`

`callMethod` is the function from its first check to its return. What it cannot
control is its `Environment`: the result of `send_packet`, the outcome of the wait of a
synchronous call, and what the loop thread does to the channel in the meantime.

The branch of a synchronous call declares a variable `ret` that hides the one the
function returns. Its wait has no predicate: it may end in time without an answer, when the
condition variable wakes up by itself or the controller was also passed to another call.
`callMethod_contract_iff` says exactly which calls report what happened and clean up after
themselves.
-/

namespace Sdpf.Client

open Sdpf.Data Sdpf.Channel

/-- The arguments of `call_method` as they are passed. -/
structure Arguments where
  service : Option CStr
  method : Option CStr
  request : Option RpcMessage
  response : Option RpcMessage
  ctrl : Option Nat

/-- The call, if none of service, method and controller is null. -/
def Arguments.call (args : Arguments) : Option Call :=
  match args.service, args.method, args.ctrl with
  | some service, some method, some ctrl =>
      some ⟨service, method, args.request, args.response, ctrl⟩
  | _, _, _ => none

/-- What the loop thread does to a client channel. -/
inductive LoopStep where
  | response (id : UInt32) (code : Int32) (body : List UInt8)
  | close
deriving DecidableEq, Repr

/-- Take a step; the controllers whose requests it completed come first. -/
def LoopStep.perform (ch : RpcChannel) : LoopStep → List Nat × RpcChannel
  | response id code body =>
      let processed := ch.processResponse id code body
      (processed.1.toList, processed.2)
  | close => ch.onClose

/-- The step concerns the request with the given id. -/
def LoopStep.Answers (id : UInt32) : LoopStep → Prop
  | response other _ _ => other = id
  | close => True

/-- The channel after a sequence of steps of the loop thread. -/
def RpcChannel.after (ch : RpcChannel) : List LoopStep → RpcChannel
  | [] => ch
  | step :: rest => (step.perform ch).2.after rest

/-- The step takes a request of the controller out of the table: `on_close` always does, a
response only if the controller does not hold an error code. -/
def RpcChannel.TakenBy (id : UInt32) (ctrl : Nat) (ch : RpcChannel) : LoopStep → Prop
  | .response other _ _ => other = id ∧ (ch.ctrls ctrl).ec = 0
  | .close => True

/-- Some step of the sequence takes the request out of the table. -/
def RpcChannel.Taken (id : UInt32) (ctrl : Nat) (ch : RpcChannel) : List LoopStep → Prop
  | [] => False
  | step :: rest =>
      ch.TakenBy id ctrl step ∨ RpcChannel.Taken id ctrl (step.perform ch).2 rest

/-- How the wait of a controller ends. -/
inductive WaitOutcome where
  | completed
  | timedOut
deriving DecidableEq, Repr

/-- What a call meets with: the value of `send_packet`, the outcome of the wait, and
the steps of the loop thread between registration and return. -/
structure Environment where
  send : Int
  wait : WaitOutcome
  meanwhile : List LoopStep
deriving DecidableEq, Repr

/-- The variable `ret` of the branch of a synchronous call. -/
def Environment.innerRet (env : Environment) : Int :=
  if 0 ≠ env.send then -4 else if env.wait = .timedOut then -5 else 0

/-- The variable `ret` of the function, after sending and waiting. -/
def Environment.outerRet (env : Environment) (done : Bool) : Int :=
  if done then
    if 0 ≠ env.send then -4 else 0
  else
    -- the assignments of this branch go to a variable of the same name
    let _ret := env.innerRet
    0

namespace RpcChannel

/-- `call_method` up to the registration: the relation id, or the error it returns. -/
def enter (ch : RpcChannel) (call : Call) : Except Int UInt32 × RpcChannel :=
  if ch.connected = false then
    (.error (-2), ch)
  else if ch.serving then
    (.error (-3), ch)
  else
    match ch.mark call with
    | none => (.error (-3), ch)
    | some marked =>
        let drawn := marked.draw call
        match drawn.2.register call drawn.1 with
        | none => (.error (-3), drawn.2)
        | some registered => (.ok drawn.1, registered)

/-- `call_method`: the value it returns, and the channel after it. -/
def callMethod (ch : RpcChannel) (args : Arguments) (env : Environment) : Int × RpcChannel :=
  match args.call with
  | none => (-1, ch)
  | some call =>
      match ch.enter call with
      | (.error ret, ch) => (ret, ch)
      | (.ok id, ch) =>
          let ret := env.outerRet (ch.ctrls call.ctrl).done
          let ch := ch.after env.meanwhile
          if 0 ≠ ret then
            (ret, ((ch.resetController call.ctrl).removeRequest id).2)
          else
            (ret, ch)

/-- The call passes the checks and is registered under the id. -/
def Registers (ch : RpcChannel) (args : Arguments) (call : Call) (id : UInt32) : Prop :=
  args.call = some call ∧ (ch.enter call).1 = .ok id

/-- The call has no callback. -/
def Sync (ch : RpcChannel) (call : Call) : Prop := (ch.ctrls call.ctrl).done = false

/-- A call reports what happened and cleans up. -/
structure Contract (ch : RpcChannel) (args : Arguments) (env : Environment) : Prop where
  success : (ch.callMethod args env).1 = 0 →
    ∃ call id, ch.Registers args call id ∧ env.send = 0 ∧
      -- the wait has no predicate, so its outcome alone does not say who ended it
      (ch.Sync call → env.wait = .completed ∧ ∃ step ∈ env.meanwhile, step.Answers id)
  failure : ∀ call id, ch.Registers args call id →
    env.send ≠ 0 ∨ ch.Sync call ∧ env.wait = .timedOut → (ch.callMethod args env).1 ≠ 0
  restored : env.meanwhile = [] → (ch.callMethod args env).1 ≠ 0 →
    (ch.callMethod args env).2.requests = ch.requests
  removed : ∀ call id, ch.Registers args call id → ch.Sync call →
    id ∉ (ch.callMethod args env).2.requests

/-- A synchronous call that is registered is sent, its wait ends in time, and its request
has been taken out of the table by then; an asynchronous one whose sending fails undisturbed
drew an id that was not in use. -/
def Covered (ch : RpcChannel) (args : Arguments) (env : Environment) : Prop :=
  ∀ call id, ch.Registers args call id →
    (ch.Sync call → env.send = 0 ∧ env.wait = .completed ∧
      (ch.enter call).2.Taken id call.ctrl env.meanwhile) ∧
      (¬ ch.Sync call → env.send ≠ 0 → env.meanwhile = [] → id ∉ ch.requests)

section Enter

variable {ch entered : RpcChannel} {call : Call} {id : UInt32}

/-- A call that is refused before its registration returns an error and leaves the
table alone. -/
theorem enter_error {ret : Int} (refused : ch.enter call = (.error ret, entered)) :
    ret ≠ 0 ∧ entered.requests = ch.requests := by
  unfold enter at refused
  split_ifs at refused
  · cases refused
    exact ⟨by decide, rfl⟩
  · cases refused
    exact ⟨by decide, rfl⟩
  · cases accepted : ch.mark call with
    | none =>
        simp only [accepted] at refused
        cases refused
        exact ⟨by decide, rfl⟩
    | some marked =>
        obtain ⟨change, rfl, _, _, _⟩ := mark_some accepted
        simp only [accepted] at refused
        split at refused
        · cases refused
          exact ⟨by decide, rfl⟩
        · cases refused

/-- What the registration of a call does. -/
theorem enter_ok (registers : ch.enter call = (.ok id, entered)) :
    entered.requests = ch.requests.insert id call.ctrl ∧
      (entered.ctrls call.ctrl).done = (ch.ctrls call.ctrl).done := by
  unfold enter at registers
  split_ifs at registers
  · cases registers
  · cases registers
  · cases accepted : ch.mark call with
    | none =>
        simp only [accepted] at registers
        cases registers
    | some marked =>
        obtain ⟨change, rfl, doneKept, _, _⟩ := mark_some accepted
        simp only [accepted] at registers
        split at registers
        · cases registers
        · next stored =>
            have inserted := register_some stored
            cases registers
            constructor
            · rw [inserted]
              rfl
            · rw [inserted]
              simp [draw, doneKept]

end Enter

section Steps

variable {ch : RpcChannel} {ctrl : Nat} {id : UInt32}

/-- What one response does to the table: it erases its own entry if the controller of that
entry holds no error code, and nothing else. -/
theorem processResponse_spec (ch : RpcChannel) (id : UInt32) (code : Int32) (body : List UInt8) :
    (∀ other, other ≠ id → (ch.processResponse id code body).2.requests.lookup other =
        ch.requests.lookup other) ∧
      ∀ ctrl, ch.requests.lookup id = some ctrl →
        (ch.processResponse id code body).2.requests =
          if (ch.ctrls ctrl).ec = 0 then ch.requests.erase id else ch.requests := by
  unfold processResponse
  cases stored : ch.requests.lookup id with
  | none =>
      rw [removeRequest_none stored]
      exact ⟨fun _ _ => rfl, fun _ found => (by cases found)⟩
  | some ctrl =>
      by_cases ordinary : (ch.ctrls ctrl).ec = 0
      · rw [removeRequest_ordinary stored ordinary]
        constructor
        · intro other distinct
          simp [ordinary, AList.lookup_erase_ne distinct]
        · rintro _ ⟨⟩
          simp [ordinary]
      · rw [removeRequest_notify stored ordinary]
        constructor
        · intro other distinct
          simp [ordinary]
        · rintro _ ⟨⟩
          simp [ordinary]

/-- The loop thread never adds a request. -/
theorem after_absent {steps : List LoopStep} (absent : id ∉ ch.requests) :
    id ∉ (ch.after steps).requests := by
  induction steps generalizing ch with
  | nil => exact absent
  | cons step rest ih =>
      apply ih
      cases step with
      | close => exact AList.notMem_empty id
      | response other code body =>
          obtain ⟨lookups, _⟩ := processResponse_spec ch other code body
          by_cases same : id = other
          · subst same
            have nothing := AList.lookup_eq_none.mpr absent
            simp only [LoopStep.perform, processResponse, removeRequest_none nothing]
            exact absent
          · rw [← AList.lookup_eq_none] at absent ⊢
            exact (lookups id same).trans absent

/-- A step that takes a request out of the table is its response or `on_close`. -/
theorem TakenBy.answers {step : LoopStep} (taken : ch.TakenBy id ctrl step) : step.Answers id := by
  cases step with
  | close => trivial
  | response other code body => exact taken.1

/-- A request that is taken out of the table is answered by one of the steps. -/
theorem Taken.answered {steps : List LoopStep} (taken : ch.Taken id ctrl steps) :
    ∃ step ∈ steps, step.Answers id := by
  induction steps generalizing ch with
  | nil => exact taken.elim
  | cons step rest ih =>
      rcases taken with here | later
      · exact ⟨step, List.mem_cons_self, TakenBy.answers here⟩
      · obtain ⟨other, among, answers⟩ := ih later
        exact ⟨other, List.mem_cons_of_mem _ among, answers⟩

/-- A step either takes the request out of the table, or the request stays as it is. -/
theorem perform_entry (step : LoopStep) (stored : ch.requests.lookup id = some ctrl) :
    ch.TakenBy id ctrl step ∧ id ∉ (step.perform ch).2.requests ∨
      ¬ ch.TakenBy id ctrl step ∧ (step.perform ch).2.requests.lookup id = some ctrl := by
  cases step with
  | close => exact .inl ⟨trivial, AList.notMem_empty id⟩
  | response other code body =>
      obtain ⟨lookups, entry⟩ := processResponse_spec ch other code body
      by_cases same : other = id
      · subst same
        have table : ((LoopStep.response other code body).perform ch).2.requests =
          if (ch.ctrls ctrl).ec = 0 then ch.requests.erase other else ch.requests :=
            entry ctrl stored
        rw [table]
        by_cases ordinary : (ch.ctrls ctrl).ec = 0
        · exact .inl ⟨⟨rfl, ordinary⟩, by simp [ordinary]⟩
        · exact .inr ⟨fun taken => ordinary taken.2, by simpa [ordinary] using stored⟩
      · refine .inr ⟨fun taken => same taken.1, ?_⟩
        exact (lookups id (Ne.symm same)).trans stored

/-- A request is gone after some steps of the loop thread exactly when one of them took it. -/
theorem after_removed_iff {steps : List LoopStep} (stored : ch.requests.lookup id = some ctrl) :
    id ∉ (ch.after steps).requests ↔ ch.Taken id ctrl steps := by
  induction steps generalizing ch with
  | nil =>
      have present : id ∈ ch.requests := mem_of_lookup stored
      exact ⟨fun absent => absurd present absent, False.elim⟩
  | cons step rest ih =>
      rcases perform_entry step stored with ⟨taken, gone⟩ | ⟨untaken, kept⟩
      · have absent : id ∉ ((step.perform ch).2.after rest).requests := after_absent gone
        exact ⟨fun _ => .inl taken, fun _ => absent⟩
      · have rests := ih kept
        constructor
        · intro absent
          exact .inr (rests.mp absent)
        · rintro (here | later)
          · exact absurd here untaken
          · exact rests.mpr later

end Steps

section Outcomes

variable {ch : RpcChannel} {args : Arguments} {env : Environment} {call : Call} {id : UInt32}

/-- The channel right after the registration of a call. -/
theorem enter_registers (registers : ch.Registers args call id) :
    ch.enter call = (.ok id, (ch.enter call).2) := by
  rw [← registers.2]

/-- A call that is not registered returns an error and leaves the table alone. -/
theorem callMethod_refused (env : Environment) (refused : ∀ call id, ¬ ch.Registers args call id) :
    (ch.callMethod args env).1 ≠ 0 ∧ (ch.callMethod args env).2.requests = ch.requests := by
  unfold callMethod
  cases passed : args.call with
  | none => exact ⟨show (-1 : Int) ≠ 0 by decide, rfl⟩
  | some call =>
      cases entered : ch.enter call with
      | mk result after =>
          cases result with
          | error ret => simpa only [entered] using enter_error entered
          | ok id => exact absurd ⟨passed, by rw [entered]⟩ (refused call id)

/-- What `call_method` does once the call has been registered. -/
theorem callMethod_registered (env : Environment) (registers : ch.Registers args call id) :
    ch.callMethod args env =
      if 0 ≠ env.outerRet (ch.ctrls call.ctrl).done then
        (env.outerRet (ch.ctrls call.ctrl).done,
          ((((ch.enter call).2.after env.meanwhile).resetController call.ctrl).removeRequest id).2)
      else
        (env.outerRet (ch.ctrls call.ctrl).done, (ch.enter call).2.after env.meanwhile) := by
  have entered := enter_registers registers
  obtain ⟨_, doneKept⟩ := enter_ok entered
  rw [callMethod, registers.1]
  simp only
  rw [entered]
  simp only [doneKept]

/-- A synchronous call that has been registered returns 0, whatever happens to it. -/
theorem callMethod_sync (env : Environment) (registers : ch.Registers args call id)
    (sync : ch.Sync call) :
    ch.callMethod args env = (0, (ch.enter call).2.after env.meanwhile) := by
  have unheard : (ch.ctrls call.ctrl).done = false := sync
  simp [callMethod_registered env registers, unheard, Environment.outerRet]

/-- An asynchronous call that has been sent returns 0. -/
theorem callMethod_sent (registers : ch.Registers args call id) (async : ¬ ch.Sync call)
    (sent : env.send = 0) :
    ch.callMethod args env = (0, (ch.enter call).2.after env.meanwhile) := by
  have done : (ch.ctrls call.ctrl).done = true := by simpa [Sync] using async
  simp [callMethod_registered env registers, done, Environment.outerRet, sent]

/-- An asynchronous call that could not be sent is taken back. -/
theorem callMethod_failed (registers : ch.Registers args call id) (async : ¬ ch.Sync call)
    (failed : env.send ≠ 0) :
    ch.callMethod args env =
      (-4, ((((ch.enter call).2.after env.meanwhile).resetController call.ctrl).removeRequest
        id).2) := by
  have done : (ch.ctrls call.ctrl).done = true := by simpa [Sync] using async
  simp [callMethod_registered env registers, done, Environment.outerRet, failed.symm]

/-- Without interference, taking a call back erases what its registration inserted. -/
theorem callMethod_undone (registers : ch.Registers args call id) (async : ¬ ch.Sync call)
    (failed : env.send ≠ 0) (undisturbed : env.meanwhile = []) :
    (ch.callMethod args env).2.requests = (ch.requests.insert id call.ctrl).erase id := by
  obtain ⟨inserted, _⟩ := enter_ok (enter_registers registers)
  rw [callMethod_failed registers async failed, undisturbed, after]
  have stored : (((ch.enter call).2.resetController call.ctrl).requests).lookup id =
      some call.ctrl := by
    simp [resetController, inserted]
  rw [removeRequest_ordinary stored (by simp [resetController])]
  simp [resetController, inserted]

/-- Erasing a new entry restores the table. -/
theorem erase_insert {requests : Requests} {ctrl : Nat} (absent : id ∉ requests) :
    (requests.insert id ctrl).erase id = requests := by
  apply AList.ext
  rw [AList.insert_of_notMem absent]
  exact List.kerase_cons_eq rfl

/-- The relation id of a synchronous call is gone when the call returns exactly when a step
of the loop thread took it out of the table. -/
theorem callMethod_sync_removed (registers : ch.Registers args call id) (sync : ch.Sync call) :
    id ∉ (ch.callMethod args env).2.requests ↔
      (ch.enter call).2.Taken id call.ctrl env.meanwhile := by
  obtain ⟨inserted, _⟩ := enter_ok (enter_registers registers)
  rw [callMethod_sync env registers sync]
  exact after_removed_iff (by simp [inserted])

/-- A call is registered under at most one id. -/
theorem registers_unique {other : Call} {otherId : UInt32} (registers : ch.Registers args call id)
    (also : ch.Registers args other otherId) : other = call ∧ otherId = id := by
  have sameCall : other = call := Option.some.inj (also.1.symm.trans registers.1)
  subst sameCall
  exact ⟨rfl, Except.ok.inj (also.2.symm.trans registers.2)⟩

/-- A synchronous call reports what happened and cleans up exactly when it was sent, its wait
ended in time and its request was taken. -/
theorem callMethod_sync_contract_iff (registers : ch.Registers args call id)
    (sync : ch.Sync call) :
    ch.Contract args env ↔ env.send = 0 ∧ env.wait = .completed ∧
      (ch.enter call).2.Taken id call.ctrl env.meanwhile := by
  have result := callMethod_sync env registers sync
  have returned : (ch.callMethod args env).1 = 0 := by rw [result]
  constructor
  · intro contract
    obtain ⟨other, otherId, also, sent, answered⟩ := contract.success returned
    obtain ⟨rfl, rfl⟩ := registers_unique registers also
    exact ⟨sent, (answered sync).1,
      (callMethod_sync_removed registers sync).mp (contract.removed _ _ registers sync)⟩
  · rintro ⟨sent, completed, taken⟩
    refine ⟨fun _ => ⟨call, id, registers, sent, fun _ => ⟨completed, taken.answered⟩⟩, ?_, ?_, ?_⟩
    · rintro other otherId _ (unsent | ⟨_, late⟩)
      · exact absurd sent unsent
      · rw [completed] at late
        cases late
    · intro _ failed
      exact absurd returned failed
    · intro other otherId also _
      obtain ⟨rfl, rfl⟩ := registers_unique registers also
      exact (callMethod_sync_removed registers sync).mpr taken

/-- An asynchronous call reports what happened and cleans up exactly when, if its sending
fails undisturbed, the id it drew was not in use. -/
theorem callMethod_async_contract_iff (registers : ch.Registers args call id)
    (async : ¬ ch.Sync call) :
    ch.Contract args env ↔ (env.send ≠ 0 → env.meanwhile = [] → id ∉ ch.requests) := by
  constructor
  · intro contract failed undisturbed inUse
    have restored := contract.restored undisturbed (by
      rw [callMethod_failed registers async failed]
      exact show (-4 : Int) ≠ 0 by decide)
    rw [callMethod_undone registers async failed undisturbed] at restored
    rw [← restored] at inUse
    simp at inUse
  · intro fresh
    -- whatever else is asked of a synchronous call does not concern this one
    have never : ∀ other otherId, ch.Registers args other otherId → ¬ ch.Sync other := by
      intro other otherId also
      obtain ⟨rfl, rfl⟩ := registers_unique registers also
      exact async
    by_cases sent : env.send = 0
    · have returned : (ch.callMethod args env).1 = 0 := by rw [callMethod_sent registers async sent]
      refine ⟨fun _ => ⟨call, id, registers, sent, fun is => absurd is async⟩, ?_, ?_, ?_⟩
      · rintro other otherId also (unsent | ⟨is, _⟩)
        · exact absurd sent unsent
        · exact absurd is (never other otherId also)
      · intro _ failed
        exact absurd returned failed
      · intro other otherId also is
        exact absurd is (never other otherId also)
    · have nonzero : (ch.callMethod args env).1 ≠ 0 := by
        rw [callMethod_failed registers async sent]
        exact show (-4 : Int) ≠ 0 by decide
      refine ⟨fun zero => absurd zero nonzero, fun _ _ _ _ => nonzero, ?_, ?_⟩
      · intro undisturbed _
        rw [callMethod_undone registers async sent undisturbed]
        exact erase_insert (fresh sent undisturbed)
      · intro other otherId also is
        exact absurd is (never other otherId also)

/-- A call reports what happened and cleans up exactly when, once registered, it is
synchronous, was sent, ended its wait in time and had its request taken out of the table by
its own response or by `on_close`, or it is asynchronous and, if its sending failed
undisturbed, had drawn an id that was not in use. -/
theorem callMethod_contract_iff :
    ch.Contract args env ↔ ch.Covered args env := by
  by_cases registered : ∃ call id, ch.Registers args call id
  · obtain ⟨call, id, registers⟩ := registered
    have covered : ch.Covered args env ↔
        (ch.Sync call → env.send = 0 ∧ env.wait = .completed ∧
          (ch.enter call).2.Taken id call.ctrl env.meanwhile) ∧
        (¬ ch.Sync call → env.send ≠ 0 → env.meanwhile = [] → id ∉ ch.requests) := by
      constructor
      · intro all
        exact all call id registers
      · intro this other otherId also
        obtain ⟨rfl, rfl⟩ := registers_unique registers also
        exact this
    rw [covered]
    by_cases sync : ch.Sync call
    · rw [callMethod_sync_contract_iff registers sync]
      exact ⟨fun all => ⟨fun _ => all, fun async => absurd sync async⟩, fun both => both.1 sync⟩
    · rw [callMethod_async_contract_iff registers sync]
      exact ⟨fun fresh => ⟨fun is => absurd is sync, fun _ => fresh⟩, fun both => both.2 sync⟩
  · have refused : ∀ call id, ¬ ch.Registers args call id :=
      fun call id registers => registered ⟨call, id, registers⟩
    obtain ⟨nonzero, same⟩ := callMethod_refused env refused
    constructor
    · intro _ call id registers
      exact absurd registers (refused call id)
    · intro _
      exact ⟨fun zero => absurd zero nonzero, fun _ _ _ _ => nonzero, fun _ _ => same,
        fun call id registers => absurd registers (refused call id)⟩

end Outcomes

/-- A connected client channel without outstanding requests; the controllers have no
callback. -/
def idle : RpcChannel where
  connected := true
  serving := false
  id := 0
  requests := ∅
  ctrls := fun _ => ⟨none, false, 0, CStr.empty⟩

/-- A synchronous call of method "b" of service "a". -/
def idleArguments : Arguments where
  service := some (CStr.ofBlock [0x61])
  method := some (CStr.ofBlock [0x62])
  request := none
  response := none
  ctrl := some 0

/-- A call that is answered in time. -/
example : idle.Covered idleArguments ⟨0, .completed, [.response 1 0 []]⟩ := by
  intro call id registers
  obtain ⟨rfl⟩ : idleArguments.call = some call := registers.1
  obtain rfl : id = 1 := (Except.ok.inj registers.2).symm
  exact ⟨fun _ => ⟨rfl, rfl, .inl ⟨rfl, rfl⟩⟩, fun async => absurd rfl async⟩

/-- A synchronous call whose sending fails returns 0. -/
theorem callMethod_not_contract :
    ¬ ∀ (ch : RpcChannel) (args : Arguments) (env : Environment), ch.Contract args env := by
  intro contract
  have holds := contract idle idleArguments ⟨-3, .timedOut, []⟩
  obtain ⟨_, _, _, sent, _⟩ := holds.success rfl
  exact absurd sent (by decide)

end RpcChannel

end Sdpf.Client
