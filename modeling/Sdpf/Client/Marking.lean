import Sdpf.Client.Attribution

/-!
# The mark of a registration

A call of the special method registers a notification; its entry stays in the table
after an answer. What marks it there is the error code of its controller, which
`process_response` overwrites with the code of the answer while the callback runs, and
which the cleanup of a failed call resets. The scan for a repeated registration, in
`RpcChannel.Repeated`, may run at any of these moments.
-/

namespace Sdpf.Client

open Sdpf.Data Sdpf.Channel Sdpf.Semantics

/-- A callback is being run for the controller, after an answer that leaves code 0. -/
def Phase.Succeeding (ch : RpcChannel) (ctrl : Nat) : Phase → Prop
  | .completed answer _ =>
      answer.ctrl = ctrl ∧ RpcChannel.outcome (ch.ctrls ctrl).resp answer.code answer.body = 0
  | .idle | .found _ | .inspected _ _ => False

instance (ch : RpcChannel) (ctrl : Nat) : (phase : Phase) → Decidable (phase.Succeeding ch ctrl)
  | .completed answer _ => inferInstanceAs (Decidable (answer.ctrl = ctrl ∧
      RpcChannel.outcome (ch.ctrls ctrl).resp answer.code answer.body = 0))
  | .idle | .found _ | .inspected _ _ => inferInstanceAs (Decidable False)

namespace RpcChannel

variable {ch marked registered : RpcChannel} {call : Call} {id : UInt32}

/-- A notification call puts the name of its service into its controller. -/
theorem mark_text (accepted : ch.mark call = some marked) (notify : call.IsNotify) :
    (marked.ctrls call.ctrl).text = call.service := by
  unfold mark at accepted
  split_ifs at accepted
  cases accepted
  simp

/-- A notification that repeats a registered one is turned away. -/
theorem register_repeated (marked : (ch.ctrls call.ctrl).ec ≠ 0) (repeated : ch.Repeated call) :
    ch.register call id = none := by
  simp [register, marked, repeated]

end RpcChannel

namespace World

variable {calls : Nat → Call} {w next : World}

/-- Take a step, where a call without a done callback keeps the error of its send in a
variable of the inner block: it returns 0, and its entry stays. -/
def advance (calls : Nat → Call) (w : World) : Action → Option World
  | .send n ret =>
      if w.pc n = .registered ∧ (w.ch.ctrls (calls n).ctrl).done = false ∧ ret ≠ 0 then
        some (w.setPc n (.returned 0))
      else
        w.step calls (.send n ret)
  | action => w.step calls action

/-- A notification call for the service stored the entry. -/
def Registers (calls : Nat → Call) (w : World) (id : UInt32) (service : CStr) : Prop :=
  id ∈ w.ch.requests ∧ (calls (w.owner id)).IsNotify ∧ (calls (w.owner id)).service = service

/-- No service has two notifications registered. -/
def OneRegistration (calls : Nat → Call) (w : World) : Prop :=
  ∀ service first second, w.Registers calls first service → w.Registers calls second service →
    first = second

/-- The call has reset its controller after its send failed. -/
def CleansUp (w : World) (n : Nat) : Prop := w.pc n = .reset ∨ w.pc n = .returned (-4)

/-- The callback of a controller is being run after a success. -/
def Succeeding (w : World) (ctrl : Nat) : Prop := w.phase.Succeeding w.ch ctrl

/-- When a notification call comes to the table, no call that registered its service there
is being cleaned up, or has its callback run after a success. -/
def Settled (calls : Nat → Call) (w : World) : Action → Prop
  | .register n => (calls n).IsNotify → ∀ entry ∈ w.ch.requests.entries,
      (calls (w.owner entry.1)).IsNotify → (calls (w.owner entry.1)).service = (calls n).service →
        ¬ w.CleansUp (w.owner entry.1) ∧ ¬ w.Succeeding (calls (w.owner entry.1)).ctrl
  | _ => True

instance (w : World) (n : Nat) : Decidable (w.CleansUp n) := by
  unfold CleansUp
  infer_instance

instance (w : World) (ctrl : Nat) : Decidable (w.Succeeding ctrl) :=
  inferInstanceAs (Decidable (w.phase.Succeeding w.ch ctrl))

instance : (action : Action) → Decidable (w.Settled calls action)
  | .register n => inferInstanceAs (Decidable ((calls n).IsNotify →
      ∀ entry ∈ w.ch.requests.entries, (calls (w.owner entry.1)).IsNotify →
        (calls (w.owner entry.1)).service = (calls n).service →
          ¬ w.CleansUp (w.owner entry.1) ∧ ¬ w.Succeeding (calls (w.owner entry.1)).ctrl))
  | .check _ | .mark _ | .send _ _ | .reset _ | .remove _ | .respond _ _ _ | .inspect
  | .complete | .remark | .connection _ | .close => inferInstanceAs (Decidable True)

/-- What the scan finds of a call whose entry is in the table. -/
structure Standing (calls : Nat → Call) (w : World) (n : Nat) : Prop where
  text : (w.ch.ctrls (calls n).ctrl).text = (calls n).service
  marked : (w.ch.ctrls (calls n).ctrl).ec ≠ 0 ∨ w.Succeeding (calls n).ctrl
  bnotify : ∀ answer bnotify,
    w.phase = .inspected answer bnotify ∨ w.phase = .completed answer bnotify →
      answer.ctrl = (calls n).ctrl → bnotify = true

/-- The registrations in the table carry their marks. -/
structure Marked (calls : Nat → Call) (w : World) : Prop where
  entry : ∀ id ctrl, w.ch.requests.lookup id = some ctrl →
    ctrl = (calls (w.owner id)).ctrl ∧ ¬ (w.pc (w.owner id)).Unregistered
  answer : ∀ answer, w.answering = some answer →
    ∃ n, answer.ctrl = (calls n).ctrl ∧ ¬ (w.pc n).Unregistered
  calling : ∀ n, w.pc n = .marked → (calls n).IsNotify →
    (w.ch.ctrls (calls n).ctrl).ec ≠ 0 ∧ (w.ch.ctrls (calls n).ctrl).text = (calls n).service
  standing : ∀ id, id ∈ w.ch.requests → (calls (w.owner id)).IsNotify →
    ¬ w.CleansUp (w.owner id) → w.Standing calls (w.owner id)

/-- Before the first call there are no marks. -/
theorem Marked.of_initial (initial : w.Initial) : w.Marked calls where
  entry id ctrl stored := by simp [initial.requests] at stored
  answer answer now := by simp [answering, initial.phase] at now
  calling n now := by simp [initial.pc n] at now
  standing id stored := by simp [initial.requests] at stored

/-- A call keeps its standing where neither its controller nor the response at hand changes. -/
theorem Standing.frame {n : Nat} (standing : w.Standing calls n) (phase : next.phase = w.phase)
    (controller : next.ch.ctrls (calls n).ctrl = w.ch.ctrls (calls n).ctrl) :
    next.Standing calls n := by
  obtain ⟨text, marked, bnotify⟩ := standing
  refine ⟨by rw [controller, text], ?_, by rwa [phase]⟩
  simpa [Succeeding, Phase.Succeeding, phase, controller] using marked

/-- A step of a call outside the table and the controllers. -/
theorem Marked.setPc {n : Nat} {pc : Pc} (marked : w.Marked calls)
    (registered : ¬ (w.pc n).Unregistered → ¬ pc.Unregistered) (early : pc ≠ .marked)
    (failed : w.CleansUp n → (w.setPc n pc).CleansUp n) : (w.setPc n pc).Marked calls := by
  constructor
  · intro id ctrl stored
    obtain ⟨is, was⟩ := marked.entry id ctrl stored
    exact ⟨is, setPc_registered registered was⟩
  · intro answer now
    obtain ⟨m, is, was⟩ := marked.answer answer now
    exact ⟨m, is, setPc_registered registered was⟩
  · exact fun m now notify => marked.calling m (setPc_marked early now).2 notify
  · intro id stored notify sound
    refine (marked.standing id stored notify fun cleans => sound ?_).frame rfl rfl
    by_cases same : w.owner id = n
    · rw [same] at cleans
      exact same ▸ failed cleans
    · have kept : (w.setPc n pc).pc (w.owner id) = w.pc (w.owner id) := by
        simp [World.setPc, same]
      exact cleans.imp kept.trans kept.trans

/-- A step of the loop thread that changes one controller, and perhaps erases an entry. -/
theorem Marked.process (marked : w.Marked calls) (pc : next.pc = w.pc)
    (owner : next.owner = w.owner)
    (stored : ∀ id ctrl, next.ch.requests.lookup id = some ctrl →
      w.ch.requests.lookup id = some ctrl)
    (answer : ∀ answer, next.answering = some answer → w.answering = some answer ∨
      ∃ id, w.ch.requests.lookup id = some answer.ctrl)
    (calling : ∀ n, w.pc n = .marked → next.ch.ctrls (calls n).ctrl = w.ch.ctrls (calls n).ctrl)
    (standing : ∀ n, w.Standing calls n → next.Standing calls n) : next.Marked calls := by
  constructor
  · intro id ctrl found
    rw [pc, owner]
    exact marked.entry id ctrl (stored id ctrl found)
  · intro now is
    rw [pc]
    rcases answer now is with was | ⟨id, found⟩
    · exact marked.answer now was
    · exact ⟨_, marked.entry id _ found⟩
  · intro n was notify
    rw [pc] at was
    rw [calling n was]
    exact marked.calling n was notify
  · intro id member notify sound
    obtain ⟨ctrl, found⟩ := lookup_of_mem member
    rw [owner] at notify sound ⊢
    simp only [CleansUp, pc] at sound
    exact standing _ (marked.standing id (mem_of_lookup (stored id ctrl found)) notify sound)

/-- A call marks its controller, which no entry and no response refers to. -/
theorem Marked.mark {n : Nat} {change : RpcController → RpcController} (marked : w.Marked calls)
    (apart : Function.Injective fun n => (calls n).ctrl) (was : w.pc n = .checked)
    (marks : ∀ controller, (change controller).ec = if (calls n).IsNotify then enotifyMark else 0)
    (text : (calls n).IsNotify →
      (change (w.ch.ctrls (calls n).ctrl)).text = (calls n).service) :
    { w.setPc n .marked with
      ch := { w.ch with id := w.ch.id + 1 }.modify (calls n).ctrl change
      drawn := Function.update w.drawn n (some (w.ch.id + 1)) }.Marked calls := by
  have unregistered : (w.pc n).Unregistered := .inr (.inl was)
  have keeps : ∀ m, ¬ (w.pc m).Unregistered → m ≠ n := fun m registered same =>
    registered (same ▸ unregistered)
  have moved : ∀ m, m ≠ n → (Function.update w.pc n Pc.marked) m = w.pc m := fun m other =>
    Function.update_of_ne other _ _
  constructor
  · intro id ctrl stored
    obtain ⟨is, registered⟩ := marked.entry id ctrl stored
    exact ⟨is, by simpa only [World.setPc, moved _ (keeps _ registered)] using registered⟩
  · intro answer now
    obtain ⟨m, is, registered⟩ := marked.answer answer now
    exact ⟨m, is, by simpa only [World.setPc, moved _ (keeps _ registered)] using registered⟩
  · intro m now notify
    by_cases same : m = n
    · subst same
      simp only [RpcChannel.modify_self]
      refine ⟨?_, text notify⟩
      rw [marks, if_pos notify]
      decide
    · simp only [RpcChannel.modify_other _ _ (apart.ne same)]
      simp only [World.setPc, moved m same] at now
      exact marked.calling m now notify
  · intro id member notify sound
    obtain ⟨ctrl, stored⟩ := lookup_of_mem member
    have other := keeps _ (marked.entry id ctrl stored).2
    refine (marked.standing id member notify ?_).frame rfl
      (RpcChannel.modify_other _ _ (apart.ne other))
    simpa only [CleansUp, World.setPc, moved _ other] using sound

/-- A call enters its controller into the table. -/
theorem Marked.register {n : Nat} {id : UInt32} (marked : w.Marked calls)
    (apart : Function.Injective fun n => (calls n).ctrl) (was : w.pc n = .marked) :
    { w.setPc n .registered with
      ch := { w.ch with requests := w.ch.requests.insert id (calls n).ctrl }
      owner := Function.update w.owner id n }.Marked calls := by
  have unregistered : (w.pc n).Unregistered := .inr (.inr (.inl was))
  have keeps : ∀ m, ¬ (w.pc m).Unregistered → m ≠ n := fun m registered same =>
    registered (same ▸ unregistered)
  have moved : ∀ m, m ≠ n → (Function.update w.pc n Pc.registered) m = w.pc m := fun m other =>
    Function.update_of_ne other _ _
  constructor
  · intro other ctrl stored
    by_cases same : other = id
    · subst same
      simp only [AList.lookup_insert, Option.some.injEq] at stored
      simp [World.setPc, stored, Pc.Unregistered]
    · simp only [AList.lookup_insert_ne same] at stored
      obtain ⟨is, registered⟩ := marked.entry other ctrl stored
      simp only [World.setPc, Function.update_of_ne same, moved _ (keeps _ registered)]
      exact ⟨is, registered⟩
  · intro answer now
    obtain ⟨m, is, registered⟩ := marked.answer answer now
    exact ⟨m, is, by simpa only [World.setPc, moved _ (keeps _ registered)] using registered⟩
  · intro m now notify
    have other : m ≠ n := by
      rintro rfl
      simp [World.setPc] at now
    simp only [World.setPc, moved m other] at now
    exact marked.calling m now notify
  · intro other member notify sound
    by_cases same : other = id
    · subst same
      simp only [Function.update_self] at notify ⊢
      obtain ⟨code, text⟩ := marked.calling n was notify
      refine ⟨text, .inl code, fun answer bnotify now about => ?_⟩
      obtain ⟨m, is, registered⟩ := marked.answer answer (by
        rcases now with now | now <;> simp only [World.setPc] at now <;> simp [answering, now])
      exact absurd (apart (is.symm.trans about)) (keeps m registered)
    · simp only [AList.mem_insert, same, false_or] at member
      simp only [Function.update_of_ne same] at notify sound ⊢
      obtain ⟨ctrl, stored⟩ := lookup_of_mem member
      have apartFrom := keeps _ (marked.entry other ctrl stored).2
      refine (marked.standing other member notify ?_).frame rfl rfl
      simpa only [CleansUp, World.setPc, moved _ apartFrom] using sound

/-- A call whose send failed resets its controller, and is cleaned up from then on. -/
theorem Marked.reset {n : Nat} (marked : w.Marked calls)
    (apart : Function.Injective fun n => (calls n).ctrl) :
    { w.setPc n .reset with ch := w.ch.resetController (calls n).ctrl }.Marked calls := by
  have others : ∀ m, m ≠ n →
      (w.ch.resetController (calls n).ctrl).ctrls (calls m).ctrl = w.ch.ctrls (calls m).ctrl := by
    intro m other
    simp only [RpcChannel.resetController, RpcChannel.modify_modify]
    exact RpcChannel.modify_other _ _ (apart.ne other)
  have moved : ∀ m, m ≠ n → (Function.update w.pc n Pc.reset) m = w.pc m := fun m other =>
    Function.update_of_ne other _ _
  have onward : ¬ (w.pc n).Unregistered → ¬ Pc.reset.Unregistered := by simp [Pc.Unregistered]
  constructor
  · intro id ctrl stored
    obtain ⟨is, registered⟩ := marked.entry id ctrl stored
    exact ⟨is, setPc_registered onward registered⟩
  · intro answer now
    obtain ⟨m, is, registered⟩ := marked.answer answer now
    exact ⟨m, is, setPc_registered onward registered⟩
  · intro m now notify
    obtain ⟨other, was⟩ := setPc_marked (by simp) now
    simp only [others m other]
    exact marked.calling m was notify
  · intro id member notify sound
    have other : w.owner id ≠ n := by
      intro same
      exact sound (.inl (by simp [World.setPc, same]))
    refine (marked.standing id member notify ?_).frame rfl (others _ other)
    simpa only [CleansUp, World.setPc, moved _ other] using sound

/-- What a notification call writes into its controller, seen from the step. -/
theorem step_text {n : Nat} (transition : w.step calls (.mark n) = some next)
    (now : next.pc n = .marked) (notify : (calls n).IsNotify) :
    (next.ch.ctrls (calls n).ctrl).text = (calls n).service := by
  simp only [World.step] at transition
  split_ifs at transition with other
  cases accepted : w.ch.mark (calls n) with
  | none =>
      simp only [accepted] at transition
      cases transition
      simp [World.setPc] at now
  | some marked =>
      simp only [accepted] at transition
      cases transition
      simpa [RpcChannel.draw] using RpcChannel.mark_text accepted notify

/-- The call at hand is none that is still on its way to the table. -/
theorem Marked.answering_apart {answer : Answer} (marked : w.Marked calls)
    (apart : Function.Injective fun n => (calls n).ctrl) (now : w.answering = some answer) {n : Nat}
    (early : w.pc n = .marked) : (calls n).ctrl ≠ answer.ctrl := by
  obtain ⟨m, is, registered⟩ := marked.answer answer now
  intro same
  have which : n = m := apart (same.trans is)
  exact registered (which ▸ .inr (.inr (.inl early)))

/-- The loop thread finds the controller of an answer. -/
theorem Marked.find {id : UInt32} {code : Int32} {body : List UInt8} {ctrl : Nat}
    (marked : w.Marked calls) (was : w.phase = .idle)
    (stored : w.ch.requests.lookup id = some ctrl) :
    { w with
      ch := (w.ch.removeRequest id).2
      phase := .found ⟨id, w.owner id, ctrl, code, body⟩ }.Marked calls := by
  refine marked.process rfl rfl (fun _ _ => RpcChannel.removeRequest_subset _) ?_ ?_ ?_
  · rintro answer now
    cases now
    exact .inr ⟨_, stored⟩
  · simp
  · rintro n ⟨text, marks, bnotify⟩
    simp only [Succeeding, Phase.Succeeding, was, or_false] at marks
    exact ⟨by simpa using text, .inl (by simpa using marks), by simp⟩

/-- The loop thread reads the error code, which tells whether the mark comes back. -/
theorem Marked.inspect {answer : Answer} (marked : w.Marked calls) (was : w.phase = .found answer) :
    { w with phase := .inspected answer ((w.ch.ctrls answer.ctrl).ec ≠ 0) }.Marked calls := by
  refine marked.process rfl rfl (fun _ _ stored => stored) ?_ (fun _ _ => rfl) ?_
  · rintro now is
    cases is
    exact .inl (by simp [answering, was])
  · rintro n ⟨text, marks, bnotify⟩
    simp only [Succeeding, Phase.Succeeding, was, or_false] at marks
    refine ⟨text, .inl marks, ?_⟩
    rintro _ _ (now | now) about <;> cases now
    simpa [about] using marks

/-- The loop thread sets the error code, and runs the callback. -/
theorem Marked.complete {answer : Answer} {bnotify : Bool} (marked : w.Marked calls)
    (apart : Function.Injective fun n => (calls n).ctrl) (was : w.phase = .inspected answer bnotify)
    (fired : List Firing) :
    { w with
      ch := w.ch.setEc answer.ctrl
        (RpcChannel.outcome (w.ch.ctrls answer.ctrl).resp answer.code answer.body)
      fired
      phase := .completed answer bnotify }.Marked calls := by
  have now : w.answering = some answer := by simp [answering, was]
  refine marked.process rfl rfl (fun _ _ stored => stored) ?_ ?_ ?_
  · rintro _ is
    cases is
    exact .inl now
  · intro n early
    rw [RpcChannel.modify_other _ _ (marked.answering_apart apart now early)]
  · rintro n ⟨text, marks, told⟩
    simp only [Succeeding, Phase.Succeeding, was, or_false] at marks
    by_cases same : (calls n).ctrl = answer.ctrl
    · -- the mark is gone for as long as the callback runs
      refine ⟨by simpa [same] using text, ?_, ?_⟩
      · simp [Succeeding, Phase.Succeeding, same, em']
      · rintro _ _ (is | is) _ <;> cases is
        exact told _ _ (.inl was) same.symm
    · refine ⟨?_, .inl ?_, ?_⟩
      · simpa [RpcChannel.modify_other _ _ same] using text
      · simpa [RpcChannel.modify_other _ _ same] using marks
      · rintro _ _ (is | is) about <;> cases is
        exact absurd about.symm same

/-- The loop thread marks the controller of a notification again. -/
theorem Marked.remark {answer : Answer} {bnotify : Bool} (marked : w.Marked calls)
    (apart : Function.Injective fun n => (calls n).ctrl)
    (was : w.phase = .completed answer bnotify) :
    { w with
      ch := if bnotify then w.ch.setEc answer.ctrl enotifyMark else w.ch
      phase := .idle }.Marked calls := by
  have now : w.answering = some answer := by simp [answering, was]
  have others : ∀ ctrl, ctrl ≠ answer.ctrl →
      (if bnotify then w.ch.setEc answer.ctrl enotifyMark else w.ch).ctrls ctrl =
        w.ch.ctrls ctrl := by
    intro ctrl other
    split
    · exact RpcChannel.modify_other _ _ other
    · rfl
  refine marked.process rfl rfl ?_ (fun _ is => (by cases is)) ?_ ?_
  · intro id ctrl stored
    split at stored <;> exact stored
  · exact fun n early => others _ (marked.answering_apart apart now early)
  · rintro n ⟨text, marks, told⟩
    simp only [Succeeding, Phase.Succeeding, was] at marks
    by_cases same : (calls n).ctrl = answer.ctrl
    · obtain rfl := told _ _ (.inr was) same.symm
      refine ⟨by simpa [same] using text, .inl ?_, by simp⟩
      simp [same, enotifyMark]
    · refine ⟨?_, .inl ?_, by simp⟩
      · simpa only [others _ same] using text
      · simpa only [others _ same] using marks.resolve_right fun both => same both.1.symm

/-- `on_close` empties the table. -/
theorem Marked.close (marked : w.Marked calls)
    (apart : Function.Injective fun n => (calls n).ctrl) (was : w.phase = .idle)
    (fired : List Firing) : { w with ch := w.ch.onClose.2, fired }.Marked calls := by
  refine ⟨by simp, fun answer now => ?_, fun n early notify => ?_, by simp⟩
  · simp [answering, was] at now
  · have absent : ∀ id, w.ch.requests.lookup id ≠ some (calls n).ctrl := by
      intro id stored
      obtain ⟨is, registered⟩ := marked.entry id _ stored
      have which : n = w.owner id := apart is
      exact registered (which ▸ .inr (.inr (.inl early)))
    simp only [RpcChannel.onClose_other _ absent]
    exact marked.calling n early notify

/-- A step keeps the mark of every registration that stands. -/
theorem Marked.step {action : Action} (marked : w.Marked calls)
    (apart : Function.Injective fun n => (calls n).ctrl)
    (transition : w.step calls action = some next) : next.Marked calls := by
  have written := @step_text calls w next
  cases step_transition transition with
  | checkRefused was =>
      exact marked.setPc (by simp [was, Pc.Unregistered]) (by simp) (by simp [was, CleansUp])
  | checkPassed was =>
      exact marked.setPc (by simp [was, Pc.Unregistered]) (by simp) (by simp [was, CleansUp])
  | markRefused was =>
      exact marked.setPc (by simp [was, Pc.Unregistered]) (by simp) (by simp [was, CleansUp])
  | markAccepted was doneKept marks resp =>
      refine marked.mark apart was marks fun notify => ?_
      simpa using written transition (by simp [World.setPc]) notify
  | registerRefused was =>
      exact marked.setPc (by simp [was, Pc.Unregistered]) (by simp) (by simp [was, CleansUp])
  | registerAccepted was drew => exact marked.register apart was
  | sent was => exact marked.setPc (by simp [Pc.Unregistered]) (by simp) (by simp [was, CleansUp])
  | sendFailed was =>
      exact marked.setPc (by simp [Pc.Unregistered]) (by simp) (by simp [was, CleansUp])
  | reset was => exact marked.reset apart
  | @removed n id was drew =>
      have returned : (w.setPc n (.returned (-4))).Marked calls :=
        marked.setPc (by simp [Pc.Unregistered]) (by simp) (by simp [CleansUp, World.setPc])
      exact returned.process rfl rfl (fun _ _ => RpcChannel.removeRequest_subset _)
        (fun _ => .inl) (by simp [World.setPc])
        fun m standing => standing.frame rfl (by simp [World.setPc])
  | unknown was absent => exact marked
  | found was stored => exact marked.find was stored
  | inspected was => exact marked.inspect was
  | completed was => exact marked.complete apart was _
  | remarked was => exact marked.remark apart was
  | connection =>
      exact marked.process rfl rfl (fun _ _ stored => stored) (fun _ => .inl) (fun _ _ => rfl)
        fun _ standing => standing.frame rfl rfl
  | closed was => exact marked.close apart was _

end World

end Sdpf.Client
