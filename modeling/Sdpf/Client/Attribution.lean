import Sdpf.Client.Interleaving

/-!
# What belongs to which call

While the relation ids do not wrap and the controllers of the calls are distinct, every
id, every entry of the table, every marked controller and the response being processed
belong to one call. `World.Attributed` is that invariant. It is kept under any
responses, failing sends and closes.
-/

namespace Sdpf.Client

open Sdpf.Data Sdpf.Channel Sdpf.Semantics

/-- The error code with which a call enters the table. -/
def Call.markCode (call : Call) : Int32 := if call.IsNotify then enotifyMark else 0

/-- An ordinary call marks its controller with 0. -/
theorem Call.markCode_ordinary {call : Call} (ordinary : ¬ call.IsNotify) : call.markCode = 0 :=
  if_neg ordinary

/-- The action draws a relation id. -/
def Action.draws : Action → Bool
  | .mark _ => true
  | _ => false

namespace World

/-- A drawn id does not wrap. -/
def Unwrapped (w : World) : Action → Prop
  | .mark _ => w.ch.id.toNat + 1 < 2 ^ 32
  | _ => True

/-- Ids, entries, controllers and the response being processed belong to their calls. -/
structure Attributed (calls : Nat → Call) (w : World) : Prop where
  bound : ∀ n id, w.drawn n = some id → id.toNat ≤ w.ch.id.toNat
  distinct : ∀ m n id, w.drawn m = some id → w.drawn n = some id → m = n
  resp : ∀ n id, w.drawn n = some id →
    (w.ch.ctrls (calls n).ctrl).resp = (calls n).response
  marked : ∀ n, w.pc n = .marked → (w.ch.ctrls (calls n).ctrl).ec = (calls n).markCode
  entry : ∀ id ctrl, w.ch.requests.lookup id = some ctrl →
    w.drawn (w.owner id) = some id ∧ ctrl = (calls (w.owner id)).ctrl ∧
      ¬ (w.pc (w.owner id)).Unregistered
  answer : ∀ answer, w.answering = some answer →
    w.drawn answer.call = some answer.id ∧ answer.ctrl = (calls answer.call).ctrl ∧
      ¬ (w.pc answer.call).Unregistered ∧
      (¬ (calls answer.call).IsNotify → answer.id ∉ w.ch.requests)
  /-- An ordinary request can be told from a notification. -/
  clean : ∀ n id, ¬ (calls n).IsNotify → w.drawn n = some id →
    (id ∈ w.ch.requests ∨ ∃ answer, w.phase = .found answer ∧ answer.call = n) →
    (w.ch.ctrls (calls n).ctrl).ec = 0
  bnotify : ∀ answer bnotify,
    w.phase = .inspected answer bnotify ∨ w.phase = .completed answer bnotify →
    ¬ (calls answer.call).IsNotify → bnotify = false

variable {calls : Nat → Call} {w next : World}

/-- Before the first call nothing is to be attributed. -/
theorem Attributed.of_initial (initial : w.Initial) : w.Attributed calls := by
  constructor
  · intro n id drew
    simp [initial.drawn] at drew
  · intro m n id drew
    simp [initial.drawn] at drew
  · intro n id drew
    simp [initial.drawn] at drew
  · intro n marked
    simp [initial.pc] at marked
  · intro id ctrl stored
    simp [initial.requests] at stored
  · intro answer now
    simp [answering, initial.phase] at now
  · intro n id _ drew
    simp [initial.drawn] at drew
  · intro answer bnotify now
    simp [initial.phase] at now

/-- An entry whose id a call has drawn is its own. -/
theorem Attributed.owner (attributed : w.Attributed calls) {n : Nat} {id : UInt32}
    (drew : w.drawn n = some id) (stored : id ∈ w.ch.requests) : w.owner id = n := by
  obtain ⟨ctrl, found⟩ := lookup_of_mem stored
  exact attributed.distinct _ _ id (attributed.entry id ctrl found).1 drew

/-- A step that draws no id and adds no entry. -/
theorem Attributed.frame (attributed : w.Attributed calls) (drawn : next.drawn = w.drawn)
    (counter : next.ch.id = w.ch.id) (owner : next.owner = w.owner)
    (resp : ∀ ctrl, (next.ch.ctrls ctrl).resp = (w.ch.ctrls ctrl).resp)
    (requests : ∀ id ctrl, next.ch.requests.lookup id = some ctrl →
      w.ch.requests.lookup id = some ctrl)
    (onward : ∀ n, ¬ (w.pc n).Unregistered → ¬ (next.pc n).Unregistered)
    (marked : ∀ n, next.pc n = .marked → w.pc n = .marked ∧
      (next.ch.ctrls (calls n).ctrl).ec = (w.ch.ctrls (calls n).ctrl).ec)
    (answer : ∀ answer, next.answering = some answer →
      w.drawn answer.call = some answer.id ∧ answer.ctrl = (calls answer.call).ctrl ∧
        ¬ (w.pc answer.call).Unregistered ∧
        (¬ (calls answer.call).IsNotify → answer.id ∉ next.ch.requests))
    (clean : ∀ n id, ¬ (calls n).IsNotify → w.drawn n = some id →
      (id ∈ next.ch.requests ∨ ∃ answer, next.phase = .found answer ∧ answer.call = n) →
      (next.ch.ctrls (calls n).ctrl).ec = 0)
    (bnotify : ∀ answer bnotify,
      next.phase = .inspected answer bnotify ∨ next.phase = .completed answer bnotify →
      ¬ (calls answer.call).IsNotify → bnotify = false) :
    next.Attributed calls := by
  constructor
  · intro n id drew
    rw [counter]
    exact attributed.bound n id (by rwa [← drawn])
  · intro m n id first second
    exact attributed.distinct m n id (by rwa [← drawn]) (by rwa [← drawn])
  · intro n id drew
    rw [resp]
    exact attributed.resp n id (by rwa [← drawn])
  · intro n now
    rw [(marked n now).2]
    exact attributed.marked n (marked n now).1
  · intro id ctrl stored
    have entry := attributed.entry id ctrl (requests id ctrl stored)
    rw [drawn, owner]
    exact ⟨entry.1, entry.2.1, onward _ entry.2.2⟩
  · intro a now
    have facts := answer a now
    rw [drawn]
    exact ⟨facts.1, facts.2.1, onward _ facts.2.2.1, facts.2.2.2⟩
  · rw [drawn]
    exact clean
  · exact bnotify

/-- A step of a call that touches neither the table nor a controller. -/
theorem Attributed.setPc {n : Nat} {pc : Pc} (attributed : w.Attributed calls)
    (unmarked : pc ≠ .marked)
    (onward : ¬ (w.pc n).Unregistered → ¬ pc.Unregistered) :
    (w.setPc n pc).Attributed calls := by
  refine attributed.frame rfl rfl rfl (fun _ => rfl) (fun _ _ stored => stored) ?_ ?_
    attributed.answer attributed.clean attributed.bnotify
  · exact fun m => setPc_registered onward
  · exact fun m marked => ⟨(setPc_marked unmarked marked).2, rfl⟩

/-- A draw below the end of the range counts one up. -/
theorem toNat_draw {id : UInt32} (unwrapped : id.toNat + 1 < 2 ^ 32) :
    (id + 1).toNat = id.toNat + 1 := by
  simp only [UInt32.toNat_add, UInt32.toNat_one]
  omega

/-- A call marks its controller and draws an id. -/
theorem Attributed.draw {n : Nat} {change : RpcController → RpcController}
    (attributed : w.Attributed calls) (apart : Function.Injective fun n => (calls n).ctrl)
    (was : w.pc n = .checked) (unwrapped : w.ch.id.toNat + 1 < 2 ^ 32)
    (marks : ∀ controller,
      (change controller).ec = if (calls n).IsNotify then enotifyMark else 0)
    (resp : ∀ controller, (change controller).resp = (calls n).response) :
    { w.setPc n .marked with
      ch := { w.ch with id := w.ch.id + 1 }.modify (calls n).ctrl change
      drawn := Function.update w.drawn n (some (w.ch.id + 1)) : World }.Attributed calls := by
  have counted := toNat_draw unwrapped
  have new : ∀ m id, w.drawn m = some id → id ≠ w.ch.id + 1 := by
    rintro m id drew rfl
    have := attributed.bound m _ drew
    omega
  have unregistered : (w.pc n).Unregistered := .inr (.inl was)
  have others : ∀ m, m ≠ n →
      ({ w.ch with id := w.ch.id + 1 }.modify (calls n).ctrl change).ctrls (calls m).ctrl =
        w.ch.ctrls (calls m).ctrl :=
    fun m other => RpcChannel.modify_other _ _ (apart.ne other)
  constructor
  · intro m id drew
    by_cases same : m = n
    · subst same
      simp only [Function.update_self, Option.some.injEq] at drew
      exact drew ▸ Nat.le_refl _
    · simp only [Function.update_of_ne same] at drew
      have := attributed.bound m id drew
      simp only [RpcChannel.modify_id]
      omega
  · intro m k id first second
    by_cases left : m = n <;> by_cases right : k = n
    · rw [left, right]
    · subst left
      simp only [Function.update_self, Function.update_of_ne right, Option.some.injEq]
        at first second
      exact absurd first.symm (new k id second)
    · subst right
      simp only [Function.update_self, Function.update_of_ne left, Option.some.injEq]
        at first second
      exact absurd second.symm (new m id first)
    · simp only [Function.update_of_ne left, Function.update_of_ne right] at first second
      exact attributed.distinct m k id first second
  · intro m id drew
    by_cases same : m = n
    · subst same
      simp only [RpcChannel.modify_self]
      exact resp _
    · simp only [Function.update_of_ne same] at drew
      simp only [others m same]
      exact attributed.resp m id drew
  · intro m marked
    by_cases same : m = n
    · subst same
      simp only [RpcChannel.modify_self]
      exact marks _
    · simp only [others m same]
      exact attributed.marked m (by simpa [World.setPc, same] using marked)
  · intro id ctrl stored
    have entry := attributed.entry id ctrl stored
    have other : w.owner id ≠ n := fun same => entry.2.2 (same ▸ unregistered)
    simpa [World.setPc, other] using entry
  · intro answer now
    have facts := attributed.answer answer now
    have other : answer.call ≠ n := fun same => facts.2.2.1 (same ▸ unregistered)
    simpa [World.setPc, other] using facts
  · intro m id ordinary drew now
    by_cases same : m = n
    · subst same
      simp only [Function.update_self, Option.some.injEq] at drew
      subst drew
      rcases now with stored | ⟨answer, found, rfl⟩
      · obtain ⟨ctrl, found⟩ := lookup_of_mem stored
        exact absurd rfl (new _ _ (attributed.entry _ _ found).1)
      · exact absurd unregistered (attributed.answer answer (by
          simp only [World.setPc] at found
          simp [answering, found])).2.2.1
    · simp only [Function.update_of_ne same] at drew
      simp only [others m same]
      exact attributed.clean m id ordinary drew now
  · exact attributed.bnotify

/-- A call enters the table under the id it has drawn. -/
theorem Attributed.register {n : Nat} {id : UInt32} (attributed : w.Attributed calls)
    (was : w.pc n = .marked) (drew : w.drawn n = some id) :
    { w.setPc n .registered with
      ch := { w.ch with requests := w.ch.requests.insert id (calls n).ctrl }
      owner := Function.update w.owner id n : World }.Attributed calls := by
  have unregistered : (w.pc n).Unregistered := .inr (.inr (.inl was))
  have onward : ∀ m, ¬ (w.pc m).Unregistered →
      ¬ ((w.setPc n .registered).pc m).Unregistered := by
    intro m registered
    have other : m ≠ n := fun same => registered (same ▸ unregistered)
    simpa [World.setPc, other] using registered
  constructor
  · exact attributed.bound
  · exact attributed.distinct
  · exact attributed.resp
  · intro m marked
    have other : m ≠ n := by
      rintro rfl
      simp [World.setPc] at marked
    exact attributed.marked m (by simpa [World.setPc, other] using marked)
  · intro other ctrl stored
    by_cases same : other = id
    · subst same
      simp only [AList.lookup_insert, Option.some.injEq] at stored
      simp [World.setPc, Pc.Unregistered, drew, stored.symm]
    · simp only [AList.lookup_insert_ne same] at stored
      have entry := attributed.entry other ctrl stored
      simp only [Function.update_of_ne same]
      exact ⟨entry.1, entry.2.1, onward _ entry.2.2⟩
  · intro answer now
    have facts := attributed.answer answer now
    have other : answer.call ≠ n := fun same => facts.2.2.1 (same ▸ unregistered)
    have otherId : answer.id ≠ id := by
      intro same
      exact other (attributed.distinct _ _ id (same ▸ facts.1) drew)
    refine ⟨facts.1, facts.2.1, onward _ facts.2.2.1, fun ordinary => ?_⟩
    simpa [otherId] using facts.2.2.2 ordinary
  · intro m other ordinary drewOther now
    by_cases same : m = n
    · subst same
      rw [← Call.markCode_ordinary ordinary]
      exact attributed.marked m was
    · have otherId : other ≠ id := by
        rintro rfl
        exact same (attributed.distinct _ _ other drewOther drew)
      apply attributed.clean m other ordinary drewOther
      simpa [World.setPc, otherId] using now
  · exact attributed.bnotify

/-- The controller of a call that is marked only is not that of a registered one. -/
theorem marked_other (apart : Function.Injective fun n => (calls n).ctrl) {n m : Nat}
    (marked : w.pc n = .marked) (registered : ¬ (w.pc m).Unregistered) :
    (calls n).ctrl ≠ (calls m).ctrl := by
  apply apart.ne
  rintro rfl
  exact registered (.inr (.inr (.inl marked)))

/-- The controller being answered changes, and the phase. -/
theorem Attributed.answered {answer : Answer} {ch : RpcChannel} {phase : Phase}
    {fired : List Firing} (attributed : w.Attributed calls)
    (apart : Function.Injective fun n => (calls n).ctrl) (now : w.answering = some answer)
    (requests : ch.requests = w.ch.requests) (counter : ch.id = w.ch.id)
    (resp : ∀ ctrl, (ch.ctrls ctrl).resp = (w.ch.ctrls ctrl).resp)
    (others : ∀ ctrl, ctrl ≠ answer.ctrl → ch.ctrls ctrl = w.ch.ctrls ctrl)
    (onward : phase = .idle ∨ ∃ bnotify, phase = .completed answer bnotify ∧
      (¬ (calls answer.call).IsNotify → bnotify = false)) :
    { w with ch := ch, fired := fired, phase := phase }.Attributed calls := by
  obtain ⟨drew, ctrl, registered, erased⟩ := attributed.answer answer now
  refine attributed.frame rfl counter rfl resp ?_ (fun _ registered => registered) ?_ ?_ ?_ ?_
  · exact fun _ _ stored => requests ▸ stored
  · intro n marked
    refine ⟨marked, ?_⟩
    have other := marked_other apart marked registered
    rw [← ctrl] at other
    exact congrArg RpcController.ec (others _ other)
  · intro other still
    rcases onward with rfl | ⟨bnotify, rfl, _⟩
    · cases still
    · cases still
      exact ⟨drew, ctrl, registered, by rwa [requests]⟩
  · intro n id ordinary drewOther pending
    have stored : id ∈ w.ch.requests := by
      rcases pending with stored | ⟨other, found, _⟩
      · rwa [requests] at stored
      · rcases onward with rfl | ⟨bnotify, rfl, _⟩ <;> cases found
    have other : n ≠ answer.call := by
      rintro rfl
      rw [drewOther] at drew
      cases drew
      exact erased ordinary stored
    rw [others _ (ctrl ▸ apart.ne other)]
    exact attributed.clean n id ordinary drewOther (.inl stored)
  · intro other bnotify still ordinary
    rcases onward with rfl | ⟨_, rfl, kind⟩
    · rcases still with still | still <;> cases still
    · rcases still with still | still <;> cases still
      exact kind ordinary

/-- A response finds its request. -/
theorem Attributed.found {id : UInt32} {ctrl : Nat} {code : Int32} {body : List UInt8}
    (attributed : w.Attributed calls) (stored : w.ch.requests.lookup id = some ctrl) :
    { w with
      ch := (w.ch.removeRequest id).2
      phase := .found ⟨id, w.owner id, ctrl, code, body⟩ : World }.Attributed calls := by
  obtain ⟨drew, same, registered⟩ := attributed.entry id ctrl stored
  have member : id ∈ w.ch.requests := mem_of_lookup stored
  have kept := w.ch.removeRequest_ctrls id
  refine attributed.frame rfl (w.ch.removeRequest_id id) rfl ?_
    (fun _ _ => RpcChannel.removeRequest_subset _) (fun _ registered => registered) ?_ ?_ ?_ ?_
  · exact fun ctrl => by rw [kept]
  · exact fun n marked => ⟨marked, by rw [kept]⟩
  · intro answer now
    cases now
    refine ⟨drew, same, registered, fun ordinary => ?_⟩
    have clean := attributed.clean _ id ordinary drew (.inl member)
    rw [← same] at clean
    rw [RpcChannel.removeRequest_ordinary stored clean]
    simp
  · intro n other ordinary drewOther pending
    rw [kept]
    rcases pending with kept | ⟨answer, now, rfl⟩
    · exact attributed.clean n other ordinary drewOther
        (.inl (RpcChannel.removeRequest_mem _ kept))
    · cases now
      exact attributed.clean _ id ordinary drew (.inl member)
  · rintro answer bnotify (now | now) <;> cases now

/-- The error code of the answered controller is read. -/
theorem Attributed.inspected {answer : Answer} (attributed : w.Attributed calls)
    (was : w.phase = .found answer) :
    { w with
      phase := .inspected answer ((w.ch.ctrls answer.ctrl).ec ≠ 0) : World }.Attributed calls := by
  have now : w.answering = some answer := by simp [answering, was]
  obtain ⟨drew, ctrl, registered, erased⟩ := attributed.answer answer now
  refine attributed.frame rfl rfl rfl (fun _ => rfl) (fun _ _ stored => stored)
    (fun _ registered => registered) (fun _ marked => ⟨marked, rfl⟩) ?_ ?_ ?_
  · intro other still
    cases still
    exact ⟨drew, ctrl, registered, erased⟩
  · intro n id ordinary drewOther pending
    rcases pending with stored | ⟨other, found, _⟩
    · exact attributed.clean n id ordinary drewOther (.inl stored)
    · cases found
  · intro other bnotify still ordinary
    rcases still with still | still <;> cases still
    have clean := attributed.clean _ _ ordinary drew (.inr ⟨answer, was, rfl⟩)
    rw [← ctrl] at clean
    simp [clean]

/-- The channel is closed. -/
theorem Attributed.closed {fired : List Firing} (attributed : w.Attributed calls)
    (apart : Function.Injective fun n => (calls n).ctrl) (was : w.phase = .idle) :
    { w with ch := w.ch.onClose.2, fired := fired }.Attributed calls := by
  refine attributed.frame rfl w.ch.onClose_id rfl ?_ ?_ (fun _ registered => registered)
    ?_ ?_ ?_ ?_
  · exact fun _ => w.ch.onClose_keeps RpcController.resp fun _ _ => rfl
  · intro id ctrl stored
    simp [RpcChannel.onClose] at stored
  · intro n marked
    refine ⟨marked, ?_⟩
    rw [RpcChannel.onClose_other]
    intro id stored
    have entry := attributed.entry id _ stored
    exact marked_other apart marked entry.2.2 entry.2.1
  · intro answer now
    simp [answering, was] at now
  · intro n id _ _ pending
    simp [RpcChannel.onClose, was] at pending
  · intro answer bnotify now
    simp [was] at now

/-- The controller of a failed call is reset. -/
theorem Attributed.reset {n : Nat} (attributed : w.Attributed calls)
    (apart : Function.Injective fun n => (calls n).ctrl) (was : w.pc n = .failed) :
    { w.setPc n .reset with ch := w.ch.resetController (calls n).ctrl : World }.Attributed
      calls := by
  have others : ∀ m, m ≠ n →
      (w.ch.resetController (calls n).ctrl).ctrls (calls m).ctrl = w.ch.ctrls (calls m).ctrl := by
    intro m other
    rw [RpcChannel.resetController, RpcChannel.modify_other _ _ (apart.ne other),
      RpcChannel.modify_other _ _ (apart.ne other)]
  refine attributed.frame rfl rfl rfl ?_ (fun _ _ stored => stored) ?_ ?_ attributed.answer ?_
    attributed.bnotify
  · exact fun _ => RpcChannel.resetController_resp ..
  · exact fun m => setPc_registered (by simp [Pc.Unregistered])
  · intro m now
    obtain ⟨other, marked⟩ := setPc_marked (by simp) now
    exact ⟨marked, by rw [others m other]⟩
  · intro m id ordinary drew pending
    by_cases same : m = n
    · subst same
      simp [RpcChannel.resetController]
    · rw [others m same]
      exact attributed.clean m id ordinary drew pending

/-- A failed call is taken out of the table. -/
theorem Attributed.removed {n : Nat} {id : UInt32} (attributed : w.Attributed calls) :
    { w.setPc n (.returned (-4)) with ch := (w.ch.removeRequest id).2 : World }.Attributed
      calls := by
  have kept := w.ch.removeRequest_ctrls id
  have returned : (w.setPc n (.returned (-4))).Attributed calls :=
    attributed.setPc (by simp) (by simp [Pc.Unregistered])
  refine returned.frame rfl (w.ch.removeRequest_id id) rfl ?_
    (fun _ _ => RpcChannel.removeRequest_subset _) (fun _ registered => registered) ?_ ?_ ?_
    attributed.bnotify
  · exact fun ctrl => by rw [kept]; rfl
  · exact fun m marked => ⟨marked, by rw [kept]; rfl⟩
  · intro answer now
    obtain ⟨drew, ctrl, registered, erased⟩ := attributed.answer answer now
    exact ⟨drew, ctrl, setPc_registered (by simp [Pc.Unregistered]) registered,
      fun ordinary stored => erased ordinary (RpcChannel.removeRequest_mem _ stored)⟩
  · intro m other ordinary drew pending
    rw [kept]
    exact attributed.clean m other ordinary drew
      (pending.imp_left (RpcChannel.removeRequest_mem _))

/-- A step keeps entries, ids and callbacks attributed to their calls. -/
theorem Attributed.step {action : Action} (attributed : w.Attributed calls)
    (apart : Function.Injective fun n => (calls n).ctrl) (unwrapped : w.Unwrapped action)
    (transition : World.step calls w action = some next) : next.Attributed calls := by
  cases step_transition transition with
  | checkRefused was error =>
      refine attributed.setPc (by simp) fun registered => ?_
      simp [was, Pc.Unregistered] at registered
  | checkPassed was connected =>
      refine attributed.setPc (by simp) fun registered => ?_
      simp [was, Pc.Unregistered] at registered
  | markRefused was =>
      refine attributed.setPc (by simp) fun registered => ?_
      simp [was, Pc.Unregistered] at registered
  | markAccepted was doneKept marks resp => exact attributed.draw apart was unwrapped marks resp
  | registerRefused was marked =>
      refine attributed.setPc (by simp) fun registered => ?_
      simp [was, Pc.Unregistered] at registered
  | registerAccepted was drew => exact attributed.register was drew
  | sent was connected => exact attributed.setPc (by simp) (by simp [Pc.Unregistered])
  | sendFailed was error => exact attributed.setPc (by simp) (by simp [Pc.Unregistered])
  | reset was => exact attributed.reset apart was
  | removed was drew => exact attributed.removed
  | unknown was absent => exact attributed
  | found was stored => exact attributed.found stored
  | inspected was => exact attributed.inspected was
  | @completed answer bnotify was =>
      exact attributed.answered apart (by simp [answering, was]) rfl rfl
        (fun _ => RpcChannel.setEc_resp ..) (fun _ other => RpcChannel.modify_other _ _ other)
        (.inr ⟨bnotify, rfl, attributed.bnotify answer bnotify (.inl was)⟩)
  | @remarked answer bnotify was =>
      have now : w.answering = some answer := by simp [answering, was]
      refine attributed.answered apart now ?_ ?_ ?_ ?_ (.inl rfl)
      · split <;> rfl
      · split <;> rfl
      · intro ctrl
        split
        · exact RpcChannel.setEc_resp ..
        · rfl
      · intro ctrl other
        split
        · exact RpcChannel.modify_other _ _ other
        · rfl
  | connection =>
      exact attributed.frame rfl rfl rfl (fun _ => rfl) (fun _ _ stored => stored)
        (fun _ registered => registered) (fun _ marked => ⟨marked, rfl⟩) attributed.answer
        attributed.clean attributed.bnotify
  | closed was => exact attributed.closed apart was

/-- Only `++id_` moves the counter. -/
theorem step_id {action : Action} (transition : World.step calls w action = some next) :
    next.ch.id.toNat ≤ w.ch.id.toNat + if action.draws then 1 else 0 := by
  cases step_transition transition with
  | markAccepted was doneKept marks resp =>
      simp only [Action.draws, RpcChannel.modify_id, UInt32.toNat_add, UInt32.toNat_one, if_true]
      exact Nat.mod_le _ _
  | removed was drew => simp
  | found was stored => simp
  | remarked was =>
      simp only
      split <;> simp
  | closed was => simp
  | _ => exact Nat.le_add_right _ _

/-- No step sets or clears a callback. -/
theorem step_done {action : Action} (transition : World.step calls w action = some next)
    (ctrl : Nat) : (next.ch.ctrls ctrl).done = (w.ch.ctrls ctrl).done := by
  cases step_transition transition with
  | markAccepted was doneKept marks resp =>
      exact RpcChannel.modify_keeps _ _ RpcController.done doneKept
  | reset was => exact RpcChannel.resetController_done ..
  | removed was drew => simp
  | found was stored => simp
  | completed was => exact RpcChannel.setEc_done ..
  | remarked was =>
      simp only
      split
      · exact RpcChannel.setEc_done ..
      · rfl
  | closed was => exact w.ch.onClose_keeps RpcController.done fun _ _ => rfl
  | _ => rfl

/-- A response being processed has found its entry in the table. -/
theorem step_answering {action : Action} {answer : Answer}
    (transition : World.step calls w action = some next) (now : next.answering = some answer) :
    w.answering = some answer ∨ action = .respond answer.id answer.code answer.body ∧
      w.ch.requests.lookup answer.id = some answer.ctrl := by
  cases step_transition transition with
  | found was stored =>
      cases now
      exact .inr ⟨rfl, stored⟩
  | inspected was =>
      cases now
      exact .inl (by simp [answering, was])
  | completed was =>
      cases now
      exact .inl (by simp [answering, was])
  | remarked was => cases now
  | _ => exact .inl now

/-- A client channel stays one. -/
theorem step_client {action : Action} (transition : World.step calls w action = some next)
    (client : w.ch.serving = false) : next.ch.serving = false := by
  cases step_transition transition with
  | removed was drew => simpa using client
  | found was stored => simpa using client
  | remarked was =>
      simp only
      split <;> exact client
  | closed was => rfl
  | _ => exact client

section Runs

variable {start : World} {actions : List Action}

/-- The counter has moved on by the draws of the run at most. -/
theorem runs_id (initial : start.Initial) (runs : (clientMachine calls).Runs start actions w) :
    w.ch.id.toNat ≤ actions.countP Action.draws := by
  induction runs with
  | refl => simp [initial.id]
  | @step actions state action next prior transition ih =>
      have moved := step_id transition
      rw [List.countP_append, List.countP_singleton]
      omega

/-- Fewer than 2^32 draws do not wrap. -/
theorem runs_unwrapped (initial : start.Initial)
    (runs : (clientMachine calls).Runs start actions w)
    (few : actions.countP Action.draws < 2 ^ 32) :
    (clientMachine calls).Along Unwrapped start actions := by
  refine runs.along_of fun {before state action after} prior same => ?_
  have drawn := runs_id initial prior
  cases action with
  | mark n =>
      rw [same, List.countP_append, List.countP_cons_of_pos rfl] at few
      simp only [Unwrapped]
      omega
  | _ => trivial

/-- Fewer than 2^32 calls with controllers of their own are kept apart. -/
theorem runs_attributed (apart : Function.Injective fun n => (calls n).ctrl)
    (initial : start.Initial) (runs : (clientMachine calls).Runs start actions w)
    (few : actions.countP Action.draws < 2 ^ 32) : w.Attributed calls :=
  runs.guarded (Attributed calls)
    (fun attributed unwrapped => attributed.step apart unwrapped) (.of_initial initial)
    (runs_unwrapped initial runs few)

/-- No step sets or clears a callback. -/
theorem runs_done (runs : (clientMachine calls).Runs start actions w) (ctrl : Nat) :
    (w.ch.ctrls ctrl).done = (start.ch.ctrls ctrl).done :=
  runs.invariant (fun w => (w.ch.ctrls ctrl).done = (start.ch.ctrls ctrl).done)
    (fun same transition => (step_done transition ctrl).trans same) rfl

end Runs

end World

end Sdpf.Client
