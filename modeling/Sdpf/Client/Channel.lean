import Sdpf.Channel.Sending
import Mathlib.Data.List.AList
import Mathlib.Logic.Function.Basic

/-!
# The client side of a channel

A client channel keeps a table of the controllers whose answers are outstanding, by
relation id. Whether an entry is removed by its answer depends on the controller's own
error code: `call_method` leaves 9876 there for a registered notification and 0 for
any other call.

The definitions are the parts of `call_method`, `process_response` and `on_close` of
`RpcChannelImp`, cut where another thread may intervene. Controllers are known by
their address.
-/

namespace Sdpf.Client

open Sdpf.Data Sdpf.Channel

/-- The fields of `RpcControllerImp` a channel uses. -/
structure RpcController where
  resp : Option RpcMessage
  /-- A done callback has been set. -/
  done : Bool
  ec : Int32
  text : CStr

/-- `requests_`, a map from relation ids to controllers. -/
abbrev Requests := AList fun _ : UInt32 => Nat

/-- An id that maps to a controller is a key. -/
theorem mem_of_lookup {requests : Requests} {id : UInt32} {ctrl : Nat}
    (stored : requests.lookup id = some ctrl) : id ∈ requests :=
  AList.lookup_isSome.mp (Option.isSome_iff_exists.mpr ⟨ctrl, stored⟩)

/-- A key maps to some controller. -/
theorem lookup_of_mem {requests : Requests} {id : UInt32} (stored : id ∈ requests) :
    ∃ ctrl, requests.lookup id = some ctrl :=
  Option.isSome_iff_exists.mp (AList.lookup_isSome.mpr stored)

/-- The state of `RpcChannelImp`, and the controllers it may refer to. -/
structure RpcChannel where
  /-- `conn_->connected()`. -/
  connected : Bool
  /-- `services_` is not null. -/
  serving : Bool
  id : UInt32
  requests : Requests
  ctrls : Nat → RpcController

/-- The arguments of `call_method`, none of them null. -/
structure Call where
  service : CStr
  method : CStr
  request : Option RpcMessage
  response : Option RpcMessage
  ctrl : Nat

/-- `_ENOTIFY_MARK`. -/
def enotifyMark : Int32 := 9876

/-- `_ERESPONSE`. -/
def eresponse : Int32 := 1004

/-- `_ENETWORK`. -/
def enetwork : Int32 := 1006

/-- The method is the special one that registers a notification. -/
def Call.IsNotify (call : Call) : Prop := strcmp call.method.bytes methodNotify.bytes = 0

instance (call : Call) : Decidable call.IsNotify := by
  unfold Call.IsNotify
  infer_instance

namespace RpcChannel

/-- Change one controller. -/
def modify (ch : RpcChannel) (ctrl : Nat) (change : RpcController → RpcController) : RpcChannel :=
  { ch with ctrls := Function.update ch.ctrls ctrl (change (ch.ctrls ctrl)) }

/-- `ctrl->ec(ec)`. -/
abbrev setEc (ch : RpcChannel) (ctrl : Nat) (ec : Int32) : RpcChannel :=
  ch.modify ctrl fun controller => { controller with ec := ec }

/-- `ctrl->text(text)`. -/
abbrev setText (ch : RpcChannel) (ctrl : Nat) (text : CStr) : RpcChannel :=
  ch.modify ctrl fun controller => { controller with text := text }

/-- `ctrl->resp(resp)`. -/
abbrev setResp (ch : RpcChannel) (ctrl : Nat) (resp : Option RpcMessage) : RpcChannel :=
  ch.modify ctrl fun controller => { controller with resp := resp }

/-- Mark the controller of a call; a notification needs a done callback. -/
def mark (ch : RpcChannel) (call : Call) : Option RpcChannel :=
  if call.IsNotify then
    if (ch.ctrls call.ctrl).done = false then
      none
    else
      some ((ch.setEc call.ctrl enotifyMark).setText call.ctrl call.service)
  else
    some (ch.setEc call.ctrl 0)

/-- Draw the relation id of a call and store where its answer goes. -/
def draw (ch : RpcChannel) (call : Call) : UInt32 × RpcChannel :=
  (ch.id + 1, { ch with id := ch.id + 1 }.setResp call.ctrl call.response)

/-- Some entry of the table is a notification registered for the same service. -/
def Repeated (ch : RpcChannel) (call : Call) : Prop :=
  ∃ entry ∈ ch.requests.entries, (ch.ctrls entry.2).ec ≠ 0 ∧
    strcmp call.service.bytes (ch.ctrls entry.2).text.bytes = 0

instance (ch : RpcChannel) (call : Call) : Decidable (ch.Repeated call) := by
  unfold Repeated
  infer_instance

/-- Enter a call into the table, unless it repeats a registered notification. -/
def register (ch : RpcChannel) (call : Call) (id : UInt32) : Option RpcChannel :=
  if (ch.ctrls call.ctrl).ec ≠ 0 ∧ ch.Repeated call then
    none
  else
    some { ch with requests := ch.requests.insert id call.ctrl }

/-- `remove_request`: the controller stored under an id, whose entry is erased unless
its error code marks a notification. -/
def removeRequest (ch : RpcChannel) (id : UInt32) : Option Nat × RpcChannel :=
  match ch.requests.lookup id with
  | none => (none, ch)
  | some ctrl =>
      if (ch.ctrls ctrl).ec = 0 then
        (some ctrl, { ch with requests := ch.requests.erase id })
      else
        (some ctrl, ch)

/-- The reset of the controller when a call has failed. -/
def resetController (ch : RpcChannel) (ctrl : Nat) : RpcChannel :=
  (ch.setEc ctrl 0).setText ctrl CStr.empty

/-- The error code an answer leaves: 1004 if its body cannot be decoded, else its own. -/
def outcome (resp : Option RpcMessage) (code : Int32) (body : List UInt8) : Int32 :=
  match resp with
  | none => code
  | some response =>
      if body.length > 0 ∧ response.deserialize body ≠ 0 then eresponse else code

/-- `process_response`, and the controller whose callback it ran or which it woke. -/
def processResponse (ch : RpcChannel) (id : UInt32) (code : Int32) (body : List UInt8) :
    Option Nat × RpcChannel :=
  match ch.removeRequest id with
  | (none, ch) => (none, ch)
  | (some ctrl, ch) =>
      let bnotify := (ch.ctrls ctrl).ec ≠ 0
      let ch := ch.setEc ctrl (outcome (ch.ctrls ctrl).resp code body)
      (some ctrl, if bnotify then ch.setEc ctrl enotifyMark else ch)

/-- `on_close`, and the controllers whose callbacks it ran or which it woke. -/
def onClose (ch : RpcChannel) : List Nat × RpcChannel :=
  let completed := if ch.serving then [] else ch.requests.entries.map Sigma.snd
  let ch := completed.foldl (fun ch ctrl => ch.setEc ctrl enetwork) ch
  (completed, { ch with requests := ∅, serving := false })

section Modify

variable (ch : RpcChannel) (ctrl other : Nat) (change : RpcController → RpcController)

@[simp] theorem modify_requests : (ch.modify ctrl change).requests = ch.requests := rfl

@[simp] theorem modify_connected : (ch.modify ctrl change).connected = ch.connected := rfl

@[simp] theorem modify_serving : (ch.modify ctrl change).serving = ch.serving := rfl

@[simp] theorem modify_id : (ch.modify ctrl change).id = ch.id := rfl

/-- The controller that is changed. -/
@[simp] theorem modify_self : (ch.modify ctrl change).ctrls ctrl = change (ch.ctrls ctrl) := by
  simp [modify]

variable {ctrl other}

/-- A change of one controller leaves the others alone. -/
theorem modify_other (distinct : other ≠ ctrl) :
    (ch.modify ctrl change).ctrls other = ch.ctrls other := by
  simp [modify, distinct]

/-- A change that keeps a field keeps it for all controllers. -/
theorem modify_keeps {α : Type} (field : RpcController → α)
    (keeps : ∀ controller, field (change controller) = field controller) :
    field ((ch.modify ctrl change).ctrls other) = field (ch.ctrls other) := by
  by_cases same : other = ctrl
  · subst same
    rw [modify_self, keeps]
  · rw [modify_other _ _ same]

/-- Two changes of one controller are one change. -/
theorem modify_modify (second : RpcController → RpcController) :
    (ch.modify ctrl change).modify ctrl second =
      ch.modify ctrl fun controller => second (change controller) := by
  simp [modify]

@[simp] theorem setEc_resp (ec : Int32) :
    ((ch.setEc ctrl ec).ctrls other).resp = (ch.ctrls other).resp :=
  ch.modify_keeps _ RpcController.resp fun _ => rfl

@[simp] theorem setEc_done (ec : Int32) :
    ((ch.setEc ctrl ec).ctrls other).done = (ch.ctrls other).done :=
  ch.modify_keeps _ RpcController.done fun _ => rfl

@[simp] theorem resetController_resp :
    ((ch.resetController ctrl).ctrls other).resp = (ch.ctrls other).resp := by
  unfold resetController
  exact (modify_keeps _ _ RpcController.resp (by exact fun _ => rfl)).trans (setEc_resp ..)

@[simp] theorem resetController_done :
    ((ch.resetController ctrl).ctrls other).done = (ch.ctrls other).done := by
  unfold resetController
  exact (modify_keeps _ _ RpcController.done (by exact fun _ => rfl)).trans (setEc_done ..)

end Modify

section Calls

variable {ch marked registered : RpcChannel} {call : Call} {id : UInt32}

/-- Marking changes nothing but the controller of the call, whose error code then tells
a notification from another call. -/
theorem mark_some (accepted : ch.mark call = some marked) :
    ∃ change : RpcController → RpcController, marked = ch.modify call.ctrl change ∧
      (∀ controller, (change controller).done = controller.done) ∧
      (∀ controller, (change controller).ec = if call.IsNotify then enotifyMark else 0) ∧
      (call.IsNotify → (ch.ctrls call.ctrl).done = true) := by
  unfold mark at accepted
  split_ifs at accepted with notify undone
  · cases accepted
    exact ⟨_, modify_modify .., fun _ => rfl, fun _ => by rw [if_pos notify],
      fun _ => by simpa using undone⟩
  · cases accepted
    exact ⟨_, rfl, fun _ => rfl, fun _ => by rw [if_neg notify], fun is => absurd is notify⟩

/-- Registration adds one entry. -/
theorem register_some (accepted : ch.register call id = some registered) :
    registered = { ch with requests := ch.requests.insert id call.ctrl } := by
  unfold register at accepted
  split_ifs at accepted
  cases accepted
  rfl

/-- A call that is no notification is always registered. -/
theorem register_ordinary (ordinary : (ch.ctrls call.ctrl).ec = 0) :
    ch.register call id = some { ch with requests := ch.requests.insert id call.ctrl } := by
  simp [register, ordinary]

/-- Removing a request that is not there does nothing. -/
theorem removeRequest_none (absent : ch.requests.lookup id = none) :
    ch.removeRequest id = (none, ch) := by
  simp [removeRequest, absent]

/-- An ordinary request is found and erased. -/
theorem removeRequest_ordinary {ctrl : Nat} (stored : ch.requests.lookup id = some ctrl)
    (ordinary : (ch.ctrls ctrl).ec = 0) :
    ch.removeRequest id = (some ctrl, { ch with requests := ch.requests.erase id }) := by
  simp [removeRequest, stored, ordinary]

/-- A registered notification is found and stays. -/
theorem removeRequest_notify {ctrl : Nat} (stored : ch.requests.lookup id = some ctrl)
    (notify : (ch.ctrls ctrl).ec ≠ 0) : ch.removeRequest id = (some ctrl, ch) := by
  simp [removeRequest, stored, notify]

/-- Success is what the answer says. -/
theorem outcome_zero {resp : Option RpcMessage} {code : Int32} {body : List UInt8}
    (success : outcome resp code body = 0) : code = 0 := by
  unfold outcome at success
  split at success
  · exact success
  · split at success
    · cases success
    · exact success

section Remove

variable (ch : RpcChannel) (id : UInt32)

/-- `remove_request` returns the controller it finds. -/
@[simp] theorem removeRequest_found : (ch.removeRequest id).1 = ch.requests.lookup id := by
  unfold removeRequest
  cases ch.requests.lookup id with
  | none => rfl
  | some ctrl =>
      simp only
      split <;> rfl

/-- Removing a request touches the table only. -/
theorem removeRequest_table :
    ∃ requests, (ch.removeRequest id).2 = { ch with requests := requests } ∧
      (requests = ch.requests ∨ requests = ch.requests.erase id) := by
  unfold removeRequest
  split
  · exact ⟨ch.requests, rfl, .inl rfl⟩
  · split
    · exact ⟨ch.requests.erase id, rfl, .inr rfl⟩
    · exact ⟨ch.requests, rfl, .inl rfl⟩

@[simp] theorem removeRequest_ctrls : (ch.removeRequest id).2.ctrls = ch.ctrls := by
  obtain ⟨_, same, _⟩ := ch.removeRequest_table id
  rw [same]

@[simp] theorem removeRequest_connected : (ch.removeRequest id).2.connected = ch.connected := by
  obtain ⟨_, same, _⟩ := ch.removeRequest_table id
  rw [same]

@[simp] theorem removeRequest_serving : (ch.removeRequest id).2.serving = ch.serving := by
  obtain ⟨_, same, _⟩ := ch.removeRequest_table id
  rw [same]

@[simp] theorem removeRequest_id : (ch.removeRequest id).2.id = ch.id := by
  obtain ⟨_, same, _⟩ := ch.removeRequest_table id
  rw [same]

variable {id}

/-- Other requests stay. -/
theorem removeRequest_other {other : UInt32} (distinct : other ≠ id) :
    (ch.removeRequest id).2.requests.lookup other = ch.requests.lookup other := by
  obtain ⟨_, same, rfl | rfl⟩ := ch.removeRequest_table id
  · rw [same]
  · rw [same]
    exact AList.lookup_erase_ne distinct

/-- `remove_request` concerns no other id. -/
theorem removeRequest_mem_iff {other : UInt32} (distinct : other ≠ id) :
    other ∈ (ch.removeRequest id).2.requests ↔ other ∈ ch.requests := by
  rw [← AList.lookup_isSome, ← AList.lookup_isSome, removeRequest_other ch distinct]

/-- What is still in the table was there before. -/
theorem removeRequest_subset {other : UInt32} {ctrl : Nat}
    (stored : (ch.removeRequest id).2.requests.lookup other = some ctrl) :
    ch.requests.lookup other = some ctrl := by
  obtain ⟨_, same, rfl | rfl⟩ := ch.removeRequest_table id
  · rwa [same] at stored
  · rw [same] at stored
    by_cases equal : other = id
    · subst equal
      simp at stored
    · rwa [AList.lookup_erase_ne equal] at stored

/-- `remove_request` adds no id. -/
theorem removeRequest_mem {other : UInt32} (stored : other ∈ (ch.removeRequest id).2.requests) :
    other ∈ ch.requests := by
  obtain ⟨_, same, rfl | rfl⟩ := ch.removeRequest_table id
  · rwa [same] at stored
  · rw [same] at stored
    exact (AList.mem_erase.mp stored).2

end Remove

section Close

variable (ch : RpcChannel)

/-- Setting error codes one after the other touches the controllers only. -/
theorem foldl_setEc (ctrls : List Nat) :
    ∃ controllers, ctrls.foldl (fun ch ctrl => ch.setEc ctrl enetwork) ch =
        { ch with ctrls := controllers } ∧
      (∀ ctrl, ctrl ∉ ctrls → controllers ctrl = ch.ctrls ctrl) ∧
      ∀ ctrl, ∃ ec, controllers ctrl = { ch.ctrls ctrl with ec := ec } := by
  induction ctrls generalizing ch with
  | nil => exact ⟨ch.ctrls, rfl, fun _ _ => rfl, fun ctrl => ⟨(ch.ctrls ctrl).ec, rfl⟩⟩
  | cons first rest ih =>
      obtain ⟨controllers, same, others, codes⟩ := ih (ch.setEc first enetwork)
      refine ⟨controllers, same, ?_, ?_⟩
      · intro ctrl absent
        rw [List.mem_cons, not_or] at absent
        rw [others ctrl absent.2, modify_other _ _ absent.1]
      · intro ctrl
        obtain ⟨ec, now⟩ := codes ctrl
        refine ⟨ec, ?_⟩
        by_cases equal : ctrl = first
        · subst equal
          rw [now, modify_self]
        · rw [now, modify_other _ _ equal]

/-- `on_close` empties the table. -/
@[simp] theorem onClose_requests : ch.onClose.2.requests = ∅ := rfl

@[simp] theorem onClose_id : ch.onClose.2.id = ch.id := by
  obtain ⟨_, same, _⟩ :=
    foldl_setEc ch (if ch.serving then [] else ch.requests.entries.map Sigma.snd)
  simp only [onClose, same]

/-- Closing changes error codes only. -/
theorem onClose_keeps {α : Type} (field : RpcController → α) {ctrl : Nat}
    (keeps : ∀ (controller : RpcController) (ec : Int32),
      field { controller with ec := ec } = field controller) :
    field (ch.onClose.2.ctrls ctrl) = field (ch.ctrls ctrl) := by
  obtain ⟨controllers, same, _, codes⟩ :=
    foldl_setEc ch (if ch.serving then [] else ch.requests.entries.map Sigma.snd)
  obtain ⟨ec, now⟩ := codes ctrl
  simp only [onClose, same, now, keeps]

/-- Controllers that are not in the table are left alone. -/
theorem onClose_other {ctrl : Nat} (absent : ∀ id, ch.requests.lookup id ≠ some ctrl) :
    ch.onClose.2.ctrls ctrl = ch.ctrls ctrl := by
  obtain ⟨controllers, same, others, _⟩ :=
    foldl_setEc ch (if ch.serving then [] else ch.requests.entries.map Sigma.snd)
  simp only [onClose, same]
  apply others
  split
  · exact List.not_mem_nil
  · intro member
    obtain ⟨⟨id, stored⟩, entry, rfl⟩ := List.mem_map.mp member
    exact absent id (AList.mem_lookup_iff.mpr entry)

end Close

end Calls

end RpcChannel

end Sdpf.Client
