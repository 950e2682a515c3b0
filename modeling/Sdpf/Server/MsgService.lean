import Sdpf.Server.Naming
import Sdpf.Dispatcher.Body

/-!
# The sample service

`_Methods` has three rows. "notify" has no handler, so that a request for it with a body is
never answered; "test" takes and returns nothing; "echo" copies its request into its
response with `strcpy`, which reads up to a terminator the request must bring along
(`echo_safe_iff`). The range checks let one method id too many pass, but `find_method`
does not return it (`row_findMethod`).
-/

namespace Sdpf.Server.MsgService

open Sdpf.Data Sdpf.Buffer Sdpf.Msgpack Sdpf.Channel Sdpf.Dispatcher

/-- A message object: its class, and the fields both classes have. -/
structure MsgObject where
  cls : MsgClass
  fields : MsgFields
deriving DecidableEq, Repr

/-- The fields of a new object. -/
def blank : MsgFields := ⟨0, .zero 64⟩

/-- `strcpy(field, source)`. -/
def strcpy (field : CharArray 64) (source : CStr) : Access (CharArray 64) :=
  if within : (source.bytes ++ [0]).length ≤ 64 then
    .ok (field.memcpy (source.bytes ++ [0]) within)
  else
    .error .overflow

/-- A handler: what it returns, and the response after it. Null objects are `none`. -/
abbrev CallHandler := Option MsgObject → Option MsgObject → Access (Int × Option MsgObject)

def notifyNew : Option MsgObject := some ⟨.notify, blank⟩

def testNew : Option MsgObject := none

def test : CallHandler := fun _ response => .ok (0, response)

def echoNew : Option MsgObject := some ⟨.echo, blank⟩

def echo : CallHandler
  | some ⟨.echo, req⟩, some ⟨.echo, rsp⟩ => do
      let msg ← strcpy rsp.msg req.msg.text
      .ok (0, some ⟨.echo, ⟨req.logId, msg⟩⟩)
  | _, response => .ok (-1, response)

/-- A row of `_Methods` without its name. Null function pointers are `none`. -/
structure SvcMethod where
  newRequest : Option (Option MsgObject)
  newResponse : Option (Option MsgObject)
  handler : Option CallHandler

def rows : List SvcMethod :=
  [⟨some notifyNew, none, none⟩, ⟨some testNew, some testNew, some test⟩,
    ⟨some echoNew, some echoNew, some echo⟩]

/-- `_method_count`. -/
def methodCount : Int := 3

/-- The row of a method id that passes the range check. -/
def row (methodId : Int) : Access (Option SvcMethod) :=
  if methodId < 0 ∨ methodId > methodCount then
    .ok none
  else
    match rows[methodId.toNat]? with
    | some svcMethod => .ok (some svcMethod)
    | none => .error .missingElement

def newRequest (methodId : Int) : Access (Option MsgObject) := do
  match ← row methodId with
  | none => .ok none
  | some svcMethod => .ok svcMethod.newRequest.join

def newResponse (methodId : Int) : Access (Option MsgObject) := do
  match ← row methodId with
  | none => .ok none
  | some svcMethod => .ok svcMethod.newResponse.join

/-- `call_method`: the response and whether the call has failed when `done` is run, if it
is run at all. -/
def callMethod (methodId : Int) (request response : Option MsgObject) :
    Access (Option (Option MsgObject × Bool)) := do
  match ← row methodId with
  | none => .ok none
  | some svcMethod =>
      match svcMethod.handler with
      | none => .ok none
      | some handle => do
          let (ret, response) ← handle request response
          .ok (some (response, decide (ret ≠ 0)))

section Service

variable (codec : Codec)

/-- The message of an object, where it is offered the space it takes. -/
def MsgObject.message (object : MsgObject) : RpcMessage where
  serialize offered :=
    let packed := object.cls.serialize codec object.fields
    if packed.2.length ≤ offered then packed else (0, [])
  deserialize bytes :=
    match object.cls.deserialize codec object.fields bytes with
    | .ok (ret, _) => ret
    | .error _ => 0
  honest offered positive := by
    simp only at positive ⊢
    split_ifs at positive ⊢ with fits
    · rw [object.cls.serialize_eq]
      rw [object.cls.serialize_eq] at fits
      exact ⟨rfl, fits⟩
    · exact absurd positive (by decide)

/-- The service as `process_request` sees it. -/
def service : RpcService where
  name := CStr.ofBlock [0x6d, 0x73, 0x67]
  findMethod := findMethod
  newRequest methodId := (newRequest methodId).toOption.join.map (MsgObject.message codec)
  newResponse methodId := (newResponse methodId).toOption.join.map (MsgObject.message codec)

/-- The request object of `process_request`, with the body decoded into it. -/
def received (methodId : Int) (body : List UInt8) : Access (Option MsgObject) := do
  match ← newRequest methodId with
  | none => .ok none
  | some object =>
      if body.length > 0 then do
        let (_, fields) ← object.cls.deserialize codec object.fields body
        .ok (some { object with fields := fields })
      else
        .ok (some object)

/-- What comes of an invocation: the objects are made, the body is decoded, and the method
is called. -/
def handle (invocation : Invocation) : Access (Option (Option MsgObject × Bool)) := do
  let request ← received codec invocation.method invocation.body
  let response ← newResponse invocation.method
  callMethod invocation.method request response

/-- The done callback was run by `call_method`. -/
def Completes (completion : Completion) : Prop :=
  ∃ response, handle codec completion.invocation = .ok (some (response, completion.failed)) ∧
    completion.response = response.map (MsgObject.message codec)

end Service

/-- A text that is copied into a field is its text. -/
theorem strcpy_ok (field : CharArray 64) {source : CStr} (room : source.strlen < 64) :
    ∃ copied, strcpy field source = .ok copied ∧ copied.text = source := by
  have within : (source.bytes ++ [0]).length ≤ 64 := by
    simp only [List.length_append, List.length_singleton]
    exact room
  refine ⟨field.memcpy (source.bytes ++ [0]) within, by simp only [strcpy, dif_pos within], ?_⟩
  refine CStr.ext ?_
  have nonzero : ∀ byte ∈ source.bytes, decide (byte ≠ 0) = true := fun byte member =>
    decide_eq_true fun zero => source.noNul (zero ▸ member)
  simp only [CharArray.text, CStr.ofBlock, CharArray.memcpy, List.append_assoc]
  rw [List.takeWhile_append_of_pos nonzero]
  simp

/-- `strcpy` stays within the field exactly if the text leaves room for a terminator. -/
theorem strcpy_iff {field : CharArray 64} {source : CStr} :
    (∃ copied, strcpy field source = .ok copied) ↔ source.strlen < 64 := by
  refine ⟨fun copies => ?_, fun room => (strcpy_ok field room).imp fun _ => And.left⟩
  by_contra full
  obtain ⟨copied, copies⟩ := copies
  have beyond : ¬ (source.bytes ++ [0]).length ≤ 64 := by
    simp only [List.length_append, List.length_singleton]
    exact full
  simp only [strcpy, dif_neg beyond] at copies
  cases copies

/-- The names and the rows of the table belong together. -/
theorem length_rows : rows.length = methods.length := rfl

/-- `find_method` stays within the table. -/
theorem row_findMethod {method : CStr} (found : 0 ≤ findMethod method) :
    ∃ svcMethod, row (findMethod method) = .ok (some svcMethod) := by
  obtain ⟨index, is⟩ := Int.eq_ofNat_of_zero_le found
  obtain ⟨entry, selected⟩ := findMethod_eq.mp is
  have inside : index < rows.length := by
    have member := List.mem_of_find?_eq_some selected
    rw [length_rows]
    exact (List.mem_zipIdx' member).1
  rw [is, row, if_neg, Int.toNat_natCast, List.getElem?_eq_getElem inside]
  · exact ⟨_, rfl⟩
  · simp only [rows, methodCount, List.length_cons, List.length_nil] at inside ⊢
    omega

section Messages

variable {codec : Codec} {fields receiver : MsgFields}

/-- A message takes at most 79 bytes. -/
theorem length_serializeFields (law : codec.Lawful) (fields : MsgFields) :
    0 < (serializeFields codec fields).2.length ∧
      (serializeFields codec fields).2.length ≤ 79 := by
  have text := fields.msg.length_text_le
  have array := law.length_packArray 2
  have number := law.length_pack (.int fields.logId) (Nat.zero_le _)
  have binary := law.length_pack (.bin fields.msg.text.bytes) (Nat.le_trans text (by decide))
  simp only [Codec.pack, Scalar.body, List.length_nil] at number binary
  simp only [serializeFields, List.length_append]
  omega

/-- A packet leaves a message more room than it takes, so what is sent is the message. -/
theorem body_message (law : codec.Lawful) (object : MsgObject) {out : Outgoing}
    (msg : out.msg = some (object.message codec)) :
    out.body codec = (serializeFields codec object.fields).2 := by
  have few := (length_metaBytes law out).2
  have short := (length_serializeFields law object.fields).2
  simp only [Outgoing.body, msg, MsgObject.message, serializeMeta_outgoing, object.cls.serialize_eq]
  rw [if_pos]
  unfold IOBuf.initialSize HeaderPacket.size
  omega

/-- What a message looks like depends on its number and its text. -/
theorem serializeFields_congr (number : receiver.logId = fields.logId)
    (text : receiver.msg.text = fields.msg.text) :
    serializeFields codec receiver = serializeFields codec fields := by
  simp only [serializeFields, number, text]

/-- A message that was sent is decoded. -/
theorem deserialize_message (law : codec.Lawful) (object : MsgObject) (sent : MsgFields) :
    (object.message codec).deserialize (serializeFields codec sent).2 = 0 := by
  have decoded := deserializeFields_sent law object.fields sent.msg.length_text_le
  simp only [MsgObject.message, object.cls.deserialize_eq, decoded]

/-- Over zeros, the text that arrives is the one that was sent. -/
theorem text_over_zeros (sent : MsgFields) (terminated : sent.msg.Terminated) :
    ((CharArray.zero 64).memcpy sent.msg.text.bytes sent.msg.length_text_le).text =
      sent.msg.text := by
  rw [CharArray.text_memcpy_iff _ _ terminated.strlen_lt]
  simp only [CharArray.zero, List.getElem?_replicate, if_pos terminated.strlen_lt]

end Messages

section Echo

variable {codec : Codec}

/-- What the echo method does with a request object. -/
def echoed (req : MsgFields) : Access (Option (Option MsgObject × Bool)) := do
  let msg ← strcpy (.zero 64) req.msg.text
  .ok (some (some ⟨.echo, ⟨req.logId, msg⟩⟩, false))

/-- The third method copies number and text. -/
theorem callMethod_echo (req : MsgFields) :
    callMethod 2 (some ⟨.echo, req⟩) echoNew = echoed req := by
  unfold echoed
  change (strcpy (.zero 64) req.msg.text >>= _) >>= _ = _
  cases strcpy (.zero 64) req.msg.text <;> rfl

/-- An invocation of the echo method decodes the body, unless it is empty, and copies. -/
theorem handle_method_echo {invocation : Invocation} (method : invocation.method = 2) :
    handle codec invocation =
      if invocation.body.length > 0 then
        deserializeFields codec blank invocation.body >>= fun decoded => echoed decoded.2
      else
        echoed blank := by
  have response : newResponse 2 = .ok echoNew := rfl
  rw [handle, method]
  change (if invocation.body.length > 0 then _ else _) >>= _ = _
  split_ifs
  · change (deserializeFields codec blank invocation.body >>= _) >>= _ = _
    cases deserializeFields codec blank invocation.body with
    | error violation => rfl
    | ok decoded => exact callMethod_echo decoded.2
  · exact callMethod_echo blank

/-- A request object with a terminated text is echoed. -/
theorem echoed_ok {req : MsgFields} (room : req.msg.text.strlen < 64) :
    ∃ copied, echoed req = .ok (some (some ⟨.echo, ⟨req.logId, copied⟩⟩, false)) ∧
      copied.text = req.msg.text := by
  obtain ⟨copied, copies, same⟩ := strcpy_ok (.zero 64) room
  exact ⟨copied, by rw [echoed, copies]; rfl, same⟩

/-- A request object is echoed exactly if its text is terminated. -/
theorem echoed_iff {req : MsgFields} :
    (∃ result, echoed req = .ok result) ↔ req.msg.text.strlen < 64 := by
  refine ⟨?_, fun room => (echoed_ok room).elim fun _ ok => ⟨_, ok.1⟩⟩
  rintro ⟨result, ok⟩
  obtain ⟨copied, copies, -⟩ := ok_bind ok
  exact strcpy_iff.mp ⟨copied, copies⟩

/-- The echo method of a message that was sent answers with the same number and text. -/
theorem handle_echo (law : codec.Lawful) {invocation : Invocation} {sent : MsgFields}
    (terminated : sent.msg.Terminated) (method : invocation.method = 2)
    (body : invocation.body = (serializeFields codec sent).2) :
    ∃ answered : MsgFields, handle codec invocation = .ok (some (some ⟨.echo, answered⟩, false)) ∧
      answered.logId = sent.logId ∧ answered.msg.text = sent.msg.text := by
  have text := text_over_zeros sent terminated
  have room := terminated.strlen_lt
  rw [← text] at room
  have arrives := @echoed_ok ⟨sent.logId, (CharArray.zero 64).memcpy sent.msg.text.bytes
    sent.msg.length_text_le⟩ room
  obtain ⟨copied, ok, same⟩ := arrives
  refine ⟨⟨sent.logId, copied⟩, ?_, rfl, same.trans text⟩
  rw [handle_method_echo method, body, if_pos (length_serializeFields law sent).1,
    deserializeFields_sent law blank sent.msg.length_text_le]
  exact ok

/-- Input that is no array, or an integer and at most 63 bytes, or 64 with a zero byte. -/
def Echoable (unpacked : Option Object) : Prop :=
  ∀ object, unpacked = some object → object.viaArray = none ∨
    ∃ logId item rest value data, object = .array (logId :: item :: rest) ∧
      logId.viaI64 = some value ∧ item.viaBin = some data ∧
      (data.length ≤ 63 ∨ data.length = 64 ∧ 0 ∈ data)

/-- An array has a terminator if its text leaves room for one. -/
theorem terminated_iff {array : CharArray 64} : array.Terminated ↔ array.text.strlen < 64 := by
  refine ⟨CharArray.Terminated.strlen_lt, fun room => ?_⟩
  by_contra none
  have whole : array.text.bytes = array.bytes := List.takeWhile_eq_self_iff.mpr fun byte member =>
    decide_eq_true fun zero => none (by rwa [CharArray.Terminated, ← zero])
  rw [CStr.strlen, whole, array.size] at room
  exact absurd room (Nat.lt_irrefl 64)

/-- What is decoded into zeros can be echoed if it is shorter than the field, or brings a
terminator along. -/
theorem echoed_memcpy_iff {logId : Int32} {data : List UInt8} (within : data.length ≤ 64) :
    (∃ result, echoed ⟨logId, (CharArray.zero 64).memcpy data within⟩ = .ok result) ↔
      data.length ≤ 63 ∨ data.length = 64 ∧ 0 ∈ data := by
  rw [echoed_iff, ← terminated_iff, CharArray.memcpy_terminated_iff]
  simp only [CharArray.zero, List.drop_replicate, List.mem_replicate]
  constructor
  · rintro (brought | ⟨some_left, -⟩)
    · exact (Nat.lt_or_ge data.length 64).imp (by omega) fun full => ⟨by omega, brought⟩
    · exact .inl (by omega)
  · rintro (short | ⟨-, brought⟩)
    · exact .inr ⟨by omega, trivial⟩
    · exact .inl brought

/-- The echo method is run without a violation exactly on an empty body, and on one that
unpacks to nothing, to no array, or to a text that ends in the request object. -/
theorem echo_safe_iff {invocation : Invocation} (method : invocation.method = 2) :
    (∃ result, handle codec invocation = .ok result) ↔
      invocation.body = [] ∨ Echoable (codec.unpackNext invocation.body) := by
  have fresh : ∃ result, echoed blank = .ok result :=
    echoed_iff.mpr (by simp [blank, CStr.strlen, CStr.empty])
  rw [handle_method_echo method]
  by_cases empty : invocation.body = []
  · simp only [empty, List.length_nil, gt_iff_lt, Nat.lt_irrefl, if_false, true_or, iff_true]
    exact fresh
  · rw [if_pos (List.length_pos_of_ne_nil empty), or_iff_right empty]
    constructor
    · rintro ⟨result, ok⟩ object unpacked
      refine or_iff_not_imp_left.mpr fun array => ?_
      obtain ⟨⟨ret, fields⟩, decoded, echoes⟩ := ok_bind ok
      obtain ⟨logId, item, rest, value, data, within, rfl, number, binary, rfl, rfl⟩ :=
        deserializeFields_ok unpacked array decoded
      exact ⟨logId, item, rest, value, data, rfl, number, binary,
        (echoed_memcpy_iff within).mp ⟨result, echoes⟩⟩
    · intro echoable
      cases unpacked : codec.unpackNext invocation.body with
      | none =>
          have skipped : deserializeFields codec blank invocation.body = .ok (-1, blank) := by
            simp only [deserializeFields, unpacked]
          rwa [skipped]
      | some object =>
          rcases echoable object unpacked with other | body
          · have skipped : deserializeFields codec blank invocation.body = .ok (-2, blank) := by
              simp only [deserializeFields, unpacked, other, Option.isNone_none, if_true]
            rwa [skipped]
          · obtain ⟨logId, item, rest, value, data, rfl, number, binary, ends⟩ := body
            have within : data.length ≤ 64 := by omega
            rw [deserializeFields_body unpacked number binary within]
            exact (echoed_memcpy_iff within).mpr ends

/-- An invocation of the echo method with a text that fills the request object. -/
def full : Invocation where
  id := 1
  service := 0
  method := 2
  body := [0x92, 0x07, 0xc4, 0x40] ++ List.replicate 64 0x61
  response := (service Wire.codec).newResponse 2

/-- The decoder accepts such a text, and the method copies it beyond the response object. -/
theorem echo_safe_iff_full :
    RpcChannel.malformed ((service Wire.codec).newRequest 2) full.body = false ∧
      handle Wire.codec full = .error .overflow ∧
      ((∃ result, handle Wire.codec full = .ok result) ↔
        full.body = [] ∨ Echoable (Wire.codec.unpackNext full.body)) :=
  ⟨by decide +kernel, by decide +kernel, echo_safe_iff rfl⟩

end Echo

end Sdpf.Server.MsgService
