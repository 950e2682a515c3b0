import Sdpf.Client.Attribution
import Sdpf.Client.Outcomes

/-!
# Following one call

`World.Tracks` follows an accepted call from its registration, against the responses
with its id that have arrived since: an ordinary call is completed by the first of them
and leaves the table, a registered notification by every one of them and stays.
-/

namespace Sdpf.Client

open Sdpf.Data Sdpf.Channel Sdpf.Semantics

/-- The responses that carry an id: their codes and bodies. -/
def responses (id : UInt32) (actions : List Action) : List (Int32 × List UInt8) :=
  actions.filterMap fun
    | .respond other code body => if other = id then some (code, body) else none
    | _ => none

/-- The callback run for a call when a response completes it. -/
def completion (calls : Nat → Call) (n : Nat) (response : Int32 × List UInt8) : Firing :=
  ⟨n, (calls n).ctrl, RpcChannel.outcome (calls n).response response.1 response.2, response.2⟩

/-- The callbacks run for a call, given what could complete it: the first only, unless
it is a notification. -/
def Call.completions (call : Call) (firings : List Firing) : List Firing :=
  if call.IsNotify then firings else firings.take 1

/-- Neither a failing send nor a close. -/
def Action.Unbroken : Action → Prop
  | .send _ ret => ret = 0
  | .close => False
  | _ => True

namespace World

/-- The call has entered the table and has not failed. -/
def Accepted (w : World) (n : Nat) : Prop := w.pc n = .registered ∨ w.pc n = .returned 0

/-- The callback about to be run for a call. -/
def imminent (calls : Nat → Call) (w : World) (n : Nat) : List Firing :=
  match w.phase with
  | .found answer | .inspected answer _ =>
      if answer.call = n then [completion calls n (answer.code, answer.body)] else []
  | .idle | .completed _ _ => []

/-- An accepted call against the responses with its id since it was registered. -/
structure Tracks (calls : Nat → Call) (n : Nat) (id : UInt32)
    (arrived : List (Int32 × List UInt8)) (w : World) : Prop where
  accepted : w.Accepted n
  drawn : w.drawn n = some id
  log : w.firings n ++ w.imminent calls n =
    (calls n).completions (arrived.map (completion calls n))
  table : id ∈ w.ch.requests ↔ (calls n).IsNotify ∨ arrived = []
  mark : (calls n).IsNotify → (w.ch.ctrls (calls n).ctrl).ec = enotifyMark ∨
    ∃ answer, w.phase = .completed answer true ∧ answer.call = n
  bnotify : (calls n).IsNotify → ∀ answer bnotify,
    w.phase = .inspected answer bnotify ∨ w.phase = .completed answer bnotify →
    answer.call = n → bnotify = true

variable {calls : Nat → Call} {w next : World} {n : Nat} {id : UInt32}
  {arrived : List (Int32 × List UInt8)}

/-- A step that does not concern the call. -/
theorem Tracks.frame (tracks : w.Tracks calls n id arrived) (accepted : next.Accepted n)
    (drawn : next.drawn n = w.drawn n) (fired : next.fired = w.fired)
    (phase : next.phase = w.phase) (requests : id ∈ next.ch.requests ↔ id ∈ w.ch.requests)
    (ec : (next.ch.ctrls (calls n).ctrl).ec = (w.ch.ctrls (calls n).ctrl).ec) :
    next.Tracks calls n id arrived := by
  constructor
  · exact accepted
  · rw [drawn, tracks.drawn]
  · rw [← tracks.log]
    simp only [firings, imminent, fired, phase]
  · rw [requests, tracks.table]
  · rw [ec, phase]
    exact tracks.mark
  · rw [phase]
    exact tracks.bnotify

/-- An accepted call has got past its registration. -/
theorem Accepted.registered {n : Nat} (accepted : w.Accepted n) : ¬ (w.pc n).Unregistered := by
  rcases accepted with now | now <;> simp [now, Pc.Unregistered]

/-- Where another call is does not matter. -/
theorem Accepted.setPc {n m : Nat} {pc : Pc} (accepted : w.Accepted n) (other : m ≠ n) :
    (w.setPc m pc).Accepted n := by
  simpa [Accepted, World.setPc, other.symm] using accepted

/-- A call that has not come to the table is not an accepted one. -/
theorem Accepted.other {n m : Nat} (accepted : w.Accepted n) (now : (w.pc m).Unregistered) :
    m ≠ n := by
  rintro rfl
  exact accepted.registered now

/-- A call whose send has failed is not an accepted one. -/
theorem Accepted.unfailed {n m : Nat} (accepted : w.Accepted n) (now : (w.pc m).SendFailed) :
    m ≠ n := by
  rintro rfl
  rcases accepted with here | here <;> simp [here, Pc.SendFailed] at now

/-- The entry of an accepted call holds its controller. -/
theorem Tracks.stored (tracks : w.Tracks calls n id arrived) (attributed : w.Attributed calls)
    {ctrl : Nat} (stored : w.ch.requests.lookup id = some ctrl) :
    w.owner id = n ∧ ctrl = (calls n).ctrl := by
  have own : w.owner id = n := attributed.owner tracks.drawn (mem_of_lookup stored)
  exact ⟨own, own ▸ (attributed.entry id ctrl stored).2.1⟩

/-- The controller of a registered notification is marked, but for the time between its
callback and the restoring of the mark. -/
theorem Tracks.marked (tracks : w.Tracks calls n id arrived) (notify : (calls n).IsNotify)
    (restored : ∀ answer bnotify, w.phase = .completed answer bnotify → answer.call ≠ n) :
    (w.ch.ctrls (calls n).ctrl).ec = enotifyMark := by
  rcases tracks.mark notify with marked | ⟨answer, now, own⟩
  · exact marked
  · exact absurd own (restored answer true now)

/-- A response for nobody completes nothing: a call with that id has been completed. -/
theorem Tracks.unknown (tracks : w.Tracks calls n id arrived)
    (absent : w.ch.requests.lookup id = none) (response : Int32 × List UInt8) :
    w.Tracks calls n id (arrived ++ [response]) := by
  have missing := AList.lookup_eq_none.mp absent
  have earlier : ¬ (calls n).IsNotify ∧ arrived ≠ [] := by
    rw [tracks.table, not_or] at missing
    exact missing
  refine ⟨tracks.accepted, tracks.drawn, ?_, ?_, tracks.mark, tracks.bnotify⟩
  · obtain ⟨first, rest, rfl⟩ := List.exists_cons_of_ne_nil earlier.2
    rw [tracks.log]
    simp [Call.completions, earlier.1]
  · simp [missing, earlier.1]

/-- A response finds the call. -/
theorem Tracks.found (tracks : w.Tracks calls n id arrived) (attributed : w.Attributed calls)
    {ctrl : Nat} {code : Int32} {body : List UInt8} (was : w.phase = .idle)
    (stored : w.ch.requests.lookup id = some ctrl) :
    { w with
      ch := (w.ch.removeRequest id).2
      phase := .found ⟨id, w.owner id, ctrl, code, body⟩ : World }.Tracks calls n id
        (arrived ++ [(code, body)]) := by
  obtain ⟨own, same⟩ := tracks.stored attributed stored
  have member : id ∈ w.ch.requests := mem_of_lookup stored
  have log := tracks.log
  simp only [imminent, was, List.append_nil] at log
  refine ⟨tracks.accepted, tracks.drawn, ?_, ?_, ?_, ?_⟩
  · simp only [imminent, own, if_true]
    change w.firings n ++ [completion calls n (code, body)] = _
    rw [log]
    by_cases notify : (calls n).IsNotify
    · simp [Call.completions, notify]
    · have none : arrived = [] := (tracks.table.mp member).resolve_left notify
      simp [Call.completions, notify, none]
  · by_cases notify : (calls n).IsNotify
    · have marked : (w.ch.ctrls ctrl).ec ≠ 0 := by
        rw [same, tracks.marked notify (by simp [was])]
        decide
      simp [RpcChannel.removeRequest_notify stored marked, member, notify]
    · have clean := attributed.clean n id notify tracks.drawn (.inl member)
      rw [← same] at clean
      simp [RpcChannel.removeRequest_ordinary stored clean, notify]
  · intro notify
    rw [RpcChannel.removeRequest_ctrls]
    exact .inl (tracks.marked notify (by simp [was]))
  · rintro _ answer bnotify (now | now) <;> cases now

/-- A response finds another call. -/
theorem Tracks.found_other (tracks : w.Tracks calls n id arrived)
    (attributed : w.Attributed calls) {other : UInt32} {ctrl : Nat} {code : Int32}
    {body : List UInt8} (was : w.phase = .idle) (distinct : other ≠ id)
    (stored : w.ch.requests.lookup other = some ctrl) :
    { w with
      ch := (w.ch.removeRequest other).2
      phase := .found ⟨other, w.owner other, ctrl, code, body⟩ : World }.Tracks calls n id
        arrived := by
  have owner : w.owner other ≠ n := by
    rintro rfl
    have drew := (attributed.entry other ctrl stored).1
    rw [tracks.drawn] at drew
    exact distinct (Option.some.inj drew).symm
  have log := tracks.log
  simp only [imminent, was] at log
  refine ⟨tracks.accepted, tracks.drawn, ?_, ?_, ?_, ?_⟩
  · simp only [imminent, owner, if_false]
    exact log
  · rw [← tracks.table]
    exact RpcChannel.removeRequest_mem_iff _ distinct.symm
  · intro notify
    rw [RpcChannel.removeRequest_ctrls]
    exact .inl (tracks.marked notify (by simp [was]))
  · rintro _ answer bnotify (now | now) <;> cases now

/-- The error code of the answered controller is read. -/
theorem Tracks.inspected {answer : Answer} (tracks : w.Tracks calls n id arrived)
    (attributed : w.Attributed calls) (was : w.phase = .found answer) :
    { w with
      phase := .inspected answer ((w.ch.ctrls answer.ctrl).ec ≠ 0) : World }.Tracks calls n id
        arrived := by
  have log := tracks.log
  simp only [imminent, was] at log
  have marked := fun notify => tracks.marked notify (by simp [was])
  refine ⟨tracks.accepted, tracks.drawn, log, tracks.table, fun notify => .inl (marked notify), ?_⟩
  rintro notify other bnotify (now | now) own
  · cases now
    have ctrl := (attributed.answer answer (by simp [answering, was])).2.1
    rw [own] at ctrl
    rw [ctrl, marked notify]
    decide
  · cases now

/-- The callback of the answered call is run. -/
theorem Tracks.completed {answer : Answer} {bnotify : Bool}
    (tracks : w.Tracks calls n id arrived) (attributed : w.Attributed calls)
    (apart : Function.Injective fun n => (calls n).ctrl)
    (done : (w.ch.ctrls (calls n).ctrl).done = true) (was : w.phase = .inspected answer bnotify) :
    { w with
      ch := w.ch.setEc answer.ctrl
        (RpcChannel.outcome (w.ch.ctrls answer.ctrl).resp answer.code answer.body)
      fired := w.fired ++ w.answerFiring answer
      phase := .completed answer bnotify : World }.Tracks calls n id arrived := by
  obtain ⟨drew, ctrl, _, _⟩ := attributed.answer answer (by simp [answering, was])
  have log := tracks.log
  simp only [imminent, was, firings] at log
  have marked := fun notify => tracks.marked notify (by simp [was])
  refine ⟨tracks.accepted, tracks.drawn, ?_, tracks.table, ?_, ?_⟩
  · rw [← log]
    simp only [imminent, firings, List.filter_append, List.append_nil]
    by_cases own : answer.call = n
    · subst own
      have resp := attributed.resp answer.call id tracks.drawn
      simp [answerFiring, completion, ctrl, done, resp]
    · have silent : (w.answerFiring answer).filter (fun firing => firing.call = n) = [] := by
        refine List.filter_eq_nil_iff.mpr fun firing member => ?_
        simpa [mem_answerFiring member] using own
      rw [silent, if_neg own]
  · intro notify
    by_cases own : answer.call = n
    · have is := tracks.bnotify notify answer bnotify (.inl was) own
      exact .inr ⟨answer, by rw [is], own⟩
    · left
      rw [ctrl, RpcChannel.modify_other _ _ (apart.ne (Ne.symm own))]
      exact marked notify
  · rintro notify other again (now | now) own
    · cases now
    · cases now
      exact tracks.bnotify notify answer bnotify (.inl was) own

/-- The mark of a notification is restored. -/
theorem Tracks.remarked {answer : Answer} {bnotify : Bool}
    (tracks : w.Tracks calls n id arrived) (attributed : w.Attributed calls)
    (apart : Function.Injective fun n => (calls n).ctrl)
    (was : w.phase = .completed answer bnotify) :
    { w with
      ch := if bnotify then w.ch.setEc answer.ctrl enotifyMark else w.ch
      phase := .idle : World }.Tracks calls n id arrived := by
  obtain ⟨drew, ctrl, _, _⟩ := attributed.answer answer (by simp [answering, was])
  have log := tracks.log
  simp only [imminent, was] at log
  refine ⟨tracks.accepted, tracks.drawn, log, ?_, ?_, ?_⟩
  · rw [← tracks.table]
    simp only
    split <;> rfl
  · intro notify
    left
    by_cases own : answer.call = n
    · rw [tracks.bnotify notify answer bnotify (.inr was) own, ctrl, own]
      simp
    · have marked := tracks.marked notify (by
        rw [was]
        rintro _ _ ⟨rfl⟩
        exact own)
      split
      · rw [ctrl, RpcChannel.modify_other _ _ (apart.ne (Ne.symm own))]
        exact marked
      · exact marked
  · rintro _ answer bnotify (now | now) <;> cases now

/-- The responses of two stretches, one after the other. -/
theorem responses_append (id : UInt32) (before after : List Action) :
    responses id (before ++ after) = responses id before ++ responses id after :=
  List.filterMap_append

/-- An action that is no response with the id of the call. -/
theorem Tracks.silent {action : Action} (silent : responses id [action] = [])
    (tracks : next.Tracks calls n id arrived) :
    next.Tracks calls n id (arrived ++ responses id [action]) := by
  rwa [silent, List.append_nil]

/-- A step completes a tracked call exactly if it is a response with its id. -/
theorem Tracks.step {action : Action} (tracks : w.Tracks calls n id arrived)
    (attributed : w.Attributed calls) (apart : Function.Injective fun n => (calls n).ctrl)
    (done : (w.ch.ctrls (calls n).ctrl).done = true) (unbroken : action.Unbroken)
    (transition : World.step calls w action = some next) :
    next.Tracks calls n id (arrived ++ responses id [action]) := by
  have accepted := tracks.accepted
  cases step_transition transition with
  | checkRefused was error =>
      have other := accepted.other (.inl was)
      exact .silent rfl (tracks.frame (accepted.setPc other) rfl rfl rfl .rfl rfl)
  | checkPassed was connected =>
      have other := accepted.other (.inl was)
      exact .silent rfl (tracks.frame (accepted.setPc other) rfl rfl rfl .rfl rfl)
  | markRefused was =>
      have other := accepted.other (.inr (.inl was))
      exact .silent rfl (tracks.frame (accepted.setPc other) rfl rfl rfl .rfl rfl)
  | markAccepted was doneKept marks resp =>
      have other := accepted.other (.inr (.inl was))
      refine .silent rfl (tracks.frame (accepted.setPc other) ?_ rfl rfl .rfl ?_)
      · simp [other.symm]
      · rw [RpcChannel.modify_other _ _ (apart.ne other.symm)]
  | registerRefused was marked =>
      have other := accepted.other (.inr (.inr (.inl was)))
      exact .silent rfl (tracks.frame (accepted.setPc other) rfl rfl rfl .rfl rfl)
  | @registerAccepted m drawn was drew =>
      have other := accepted.other (.inr (.inr (.inl was)))
      refine .silent rfl (tracks.frame (accepted.setPc other) rfl rfl rfl ?_ rfl)
      have distinct : id ≠ drawn := by
        rintro rfl
        exact other (attributed.distinct _ _ id drew tracks.drawn)
      simp [distinct]
  | @sent m was connected =>
      refine .silent rfl (tracks.frame ?_ rfl rfl rfl .rfl rfl)
      by_cases same : m = n
      · subst same
        exact .inr (by simp [World.setPc])
      · exact accepted.setPc same
  | sendFailed was error => exact absurd unbroken error
  | reset was =>
      have other := accepted.unfailed (.inl was)
      refine .silent rfl (tracks.frame (accepted.setPc other) rfl rfl rfl .rfl ?_)
      simp only [RpcChannel.resetController]
      rw [RpcChannel.modify_other _ _ (apart.ne other.symm),
        RpcChannel.modify_other _ _ (apart.ne other.symm)]
  | @removed m drawn was drew =>
      have other := accepted.unfailed (.inr (.inl was))
      have distinct : id ≠ drawn := by
        rintro rfl
        exact other (attributed.distinct _ _ id drew tracks.drawn)
      have requests := w.ch.removeRequest_mem_iff distinct
      exact .silent rfl (tracks.frame (accepted.setPc other) rfl rfl rfl requests (by simp))
  | @unknown other code body was absent =>
      by_cases same : other = id
      · subst same
        simpa [responses] using tracks.unknown absent (code, body)
      · simpa [responses, same] using tracks
  | @found other code body ctrl was stored =>
      by_cases same : other = id
      · subst same
        simpa [responses] using tracks.found attributed was stored
      · simpa [responses, same] using tracks.found_other attributed was same stored
  | inspected was => exact .silent rfl (tracks.inspected attributed was)
  | completed was => exact .silent rfl (tracks.completed attributed apart done was)
  | remarked was => exact .silent rfl (tracks.remarked attributed apart was)
  | connection => exact .silent rfl (tracks.frame accepted rfl rfl rfl .rfl rfl)
  | closed was => exact unbroken.elim

/-- A call is followed from its registration. -/
theorem Tracks.register (attributed : w.Attributed calls) (separate : w.Separate)
    (was : w.pc n = .marked) (drew : w.drawn n = some id) :
    { w.setPc n .registered with
      ch := { w.ch with requests := w.ch.requests.insert id (calls n).ctrl }
      owner := Function.update w.owner id n : World }.Tracks calls n id [] := by
  have unregistered : (w.pc n).Unregistered := .inr (.inr (.inl was))
  have elsewhere : ∀ answer, w.answering = some answer → answer.call ≠ n := by
    rintro answer now rfl
    exact (attributed.answer answer now).2.2.1 unregistered
  have unfired : w.firings n = [] := by
    refine List.filter_eq_nil_iff.mpr fun firing member => ?_
    have := (separate.unregistered n unregistered).1
    simpa using fun own => this ⟨firing, member, own⟩
  have none : w.imminent calls n = [] := by
    unfold imminent
    split
    · next answer now => exact if_neg (elsewhere answer (by simp [answering, now]))
    · next answer bnotify now => exact if_neg (elsewhere answer (by simp [answering, now]))
    · rfl
    · rfl
  refine ⟨.inl (by simp [World.setPc]), drew, ?_, by simp, ?_, ?_⟩
  · change w.firings n ++ w.imminent calls n = _
    rw [unfired, none]
    simp [Call.completions]
  · intro notify
    left
    change (w.ch.ctrls (calls n).ctrl).ec = enotifyMark
    rw [attributed.marked n was, Call.markCode, if_pos notify]
  · rintro _ answer bnotify now own
    refine absurd own (elsewhere answer ?_)
    rcases now with now | now <;> simp only [World.setPc] at now <;> simp [answering, now]

/-- The entries of a table under one id. -/
theorem filter_key (requests : Requests) (id : UInt32) :
    requests.entries.filter (fun entry => entry.1 = id) =
      (requests.lookup id).toList.map (Sigma.mk id) := by
  obtain ⟨entries, nodup⟩ := requests
  simp only [AList.lookup]
  induction entries with
  | nil => rfl
  | cons entry rest ih =>
      obtain ⟨key, ctrl⟩ := entry
      obtain ⟨absent, nodupRest⟩ := List.nodupKeys_cons.mp nodup
      by_cases same : key = id
      · subst same
        have missing : List.dlookup key rest = none := List.dlookup_eq_none.mpr absent
        rw [List.filter_cons_of_pos (by simp), ih nodupRest, missing, List.dlookup_cons_eq]
        rfl
      · rw [List.filter_cons_of_neg (by simpa using same), ih nodupRest,
          List.dlookup_cons_ne _ _ (Ne.symm same)]

/-- What closing the channel does for an accepted call. -/
theorem Tracks.closeFirings (tracks : w.Tracks calls n id arrived)
    (attributed : w.Attributed calls) (done : ∀ n, (w.ch.ctrls (calls n).ctrl).done = true)
    (client : w.ch.serving = false) :
    w.closeFirings.filter (fun firing => firing.call = n) =
      if id ∈ w.ch.requests then [⟨n, (calls n).ctrl, enetwork, []⟩] else [] := by
  have every : w.closeFirings = w.ch.requests.entries.map fun entry =>
      ⟨w.owner entry.1, entry.2, enetwork, []⟩ := by
    unfold World.closeFirings
    rw [if_neg (by simp [client]), ← List.filterMap_eq_map]
    refine List.filterMap_congr fun entry member => ?_
    have same := (attributed.entry entry.1 entry.2 (AList.mem_lookup_iff.mpr member)).2.1
    rw [if_pos (by rw [same, done])]
    rfl
  have own : ∀ entry ∈ w.ch.requests.entries, (w.owner entry.1 = n ↔ entry.1 = id) := by
    intro entry member
    have drew := (attributed.entry entry.1 entry.2 (AList.mem_lookup_iff.mpr member)).1
    constructor
    · intro same
      rw [same, tracks.drawn] at drew
      exact (Option.some.inj drew).symm
    · intro same
      rw [same] at drew ⊢
      exact attributed.distinct _ _ id drew tracks.drawn
  rw [every, List.filter_map]
  rw [List.filter_congr (q := fun entry => decide (entry.1 = id))
    (fun entry member => by simp [own entry member]), filter_key]
  cases stored : w.ch.requests.lookup id with
  | none =>
      rw [if_neg (AList.lookup_eq_none.mp stored)]
      rfl
  | some ctrl =>
      have member : id ∈ w.ch.requests := mem_of_lookup stored
      obtain ⟨owner, same⟩ := tracks.stored attributed stored
      rw [if_pos member, same]
      simp [owner]

end World

end Sdpf.Client
