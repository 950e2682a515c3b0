import Sdpf.Dispatcher.Meta
import Sdpf.Msgpack.Wire

/-!
# The meta decoder on arbitrary input

`deserializeMeta` trusts the shape of what it unpacked. `Decodable` names the inputs
that have a shape it can be trusted with, and `deserializeMeta_safe_iff` shows that
these are all of them: on any other input it commits a violation, or accepts a text
that fills its field and leaves no terminator.
-/

namespace Sdpf.Dispatcher

open Sdpf.Data Sdpf.Msgpack

/-- A string that leaves room for a terminator in a field of 64 bytes. -/
def IsText (object : Object) : Prop := ∃ bytes, object = .str bytes ∧ bytes.length ≤ 63

/-- The kinds of the third and the fourth element, by message type. -/
def Operands (type : UInt32) (third fourth : Object) : Prop :=
  type = rpctypeRequest ∧ IsText third ∧ IsText fourth ∨
    type = rpctypeResponse ∧ third.viaI64.isSome ∧ IsText fourth

/-- Meta data of a request or a response. -/
def WellFormed (object : Object) : Prop :=
  ∃ type id third fourth rest value,
    object = .array (type :: id :: third :: fourth :: rest) ∧
      type.viaI64 = some value ∧ id.viaU64.isSome ∧ Operands (messageType value) third fourth

/-- Meta data of a type that has no operands. -/
def Foreign (object : Object) : Prop :=
  ∃ type id rest value,
    object = .array (type :: id :: rest) ∧ type.viaI64 = some value ∧ id.viaU64.isSome ∧
      messageType value ≠ rpctypeRequest ∧ messageType value ≠ rpctypeResponse

/-- The struct `parse` hands to the decoder: zeroed but for the type in the header. -/
def MetaRpc.fresh (type : UInt32) : MetaRpc := { MetaRpc.zero with type := type }

/-- The texts a receiver goes on to use end inside their fields. -/
def MetaRpc.Terminated (m : MetaRpc) : Prop :=
  (m.type = rpctypeRequest → m.req.service.Terminated ∧ m.req.method.Terminated) ∧
    (m.type = rpctypeResponse → m.rsp.text.Terminated)

/-- The decoder commits no violation and accepts nothing but well-formed meta data. -/
def SafeAndStrict (codec : Codec) (type : UInt32) (bytes : List UInt8) : Prop :=
  ∃ ret m, deserializeMeta codec (.fresh type) bytes = .ok (ret, m) ∧
    (ret = 0 → (∃ object, codec.unpackNext bytes = some object ∧ WellFormed object) ∧ m.Terminated)

/-- Inputs that unpack to nothing, to meta data, or to an unknown type of message. -/
def Decodable (unpacked : Option Object) : Prop :=
  ∀ object, unpacked = some object → WellFormed object ∨ Foreign object

/-- The two types of a packet differ. -/
theorem request_ne_response : rpctypeRequest ≠ rpctypeResponse := by decide

section Runs

variable {codec : Codec} {m : MetaRpc} {bytes : List UInt8} {type id third : Object}
  {rest : List Object} {value : Int64} {relation : UInt64}

/-- A request whose texts fit their fields is decoded into the two fields. -/
theorem deserializeMeta_request {service method : List UInt8}
    (unpacked : codec.unpackNext bytes =
      some (.array (type :: id :: .str service :: .str method :: rest)))
    (typed : type.viaI64 = some value) (related : id.viaU64 = some relation)
    (request : messageType value = rpctypeRequest)
    (serviceFits : service.length ≤ 64) (methodFits : method.length ≤ 64) :
    deserializeMeta codec m bytes = .ok (0, {
      type := rpctypeRequest
      relationId := relation.toUInt32
      req := ⟨m.req.service.strncpy service service.length serviceFits,
        m.req.method.strncpy method method.length methodFits⟩
      rsp := m.rsp }) := by
  simp only [deserializeMeta, unpacked, element_array, List.getElem?_cons_zero,
    List.getElem?_cons_succ, bind, Except.bind, typed, related, variant, request, if_true,
    copyText_str, dif_pos serviceFits, dif_pos methodFits]

/-- A response whose text fits its field is decoded into code and text. -/
theorem deserializeMeta_response {code : Int64} {text : List UInt8}
    (unpacked : codec.unpackNext bytes = some (.array (type :: id :: third :: .str text :: rest)))
    (typed : type.viaI64 = some value) (related : id.viaU64 = some relation)
    (response : messageType value = rpctypeResponse)
    (coded : third.viaI64 = some code) (textFits : text.length ≤ 64) :
    deserializeMeta codec m bytes = .ok (0, {
      type := rpctypeResponse
      relationId := relation.toUInt32
      req := m.req
      rsp := ⟨code.toInt32, m.rsp.text.strncpy text text.length textFits⟩ }) := by
  simp only [deserializeMeta, unpacked, element_array, List.getElem?_cons_zero,
    List.getElem?_cons_succ, bind, Except.bind, typed, related, variant, response, if_true,
    if_neg request_ne_response.symm, coded, copyText_str, dif_pos textFits]

/-- Two integers of which the first is no known message type are refused. -/
theorem deserializeMeta_foreign
    (unpacked : codec.unpackNext bytes = some (.array (type :: id :: rest)))
    (typed : type.viaI64 = some value) (related : id.viaU64 = some relation)
    (notRequest : messageType value ≠ rpctypeRequest)
    (notResponse : messageType value ≠ rpctypeResponse) :
    deserializeMeta codec m bytes =
      .ok (-2, { m with type := messageType value, relationId := relation.toUInt32 }) := by
  simp only [deserializeMeta, unpacked, element_array, List.getElem?_cons_zero,
    List.getElem?_cons_succ, bind, Except.bind, typed, related, variant, if_neg notRequest,
    if_neg notResponse]

end Runs

/-- Reading a union without a violation means that it holds that member. -/
theorem variant_ok {α : Type} {view : Option α} {payload : α}
    (ok : variant view = .ok payload) : view = some payload := by
  cases view with
  | none => cases ok
  | some stored =>
      cases ok
      rfl

/-- Only elements an array has are read. -/
theorem element_ok {object item : Object} {index : Nat}
    (ok : element object index = .ok item) :
    ∃ items, object = .array items ∧ items[index]? = some item := by
  obtain ⟨items, isArray, present⟩ := ok_bind ok
  have stored := variant_ok isArray
  cases object with
  | array _ =>
      cases stored
      refine ⟨items, rfl, ?_⟩
      cases found : items[index]? with
      | none => simp [found] at present
      | some other =>
          simp only [found] at present
          cases present
          rfl
  | _ => cases stored

/-- Every way to get through the decoder without a violation. -/
inductive Accepted (m : MetaRpc) : Object → Int → MetaRpc → Prop where
  | request {type id rest value relation service method}
      (typed : type.viaI64 = some value) (related : id.viaU64 = some relation)
      (request : messageType value = rpctypeRequest)
      (serviceFits : service.length ≤ 64) (methodFits : method.length ≤ 64) :
      Accepted m (.array (type :: id :: .str service :: .str method :: rest)) 0 {
        type := rpctypeRequest
        relationId := relation.toUInt32
        req := ⟨m.req.service.strncpy service service.length serviceFits,
          m.req.method.strncpy method method.length methodFits⟩
        rsp := m.rsp }
  | response {type id third rest value relation code text}
      (typed : type.viaI64 = some value) (related : id.viaU64 = some relation)
      (response : messageType value = rpctypeResponse)
      (coded : third.viaI64 = some code) (textFits : text.length ≤ 64) :
      Accepted m (.array (type :: id :: third :: .str text :: rest)) 0 {
        type := rpctypeResponse
        relationId := relation.toUInt32
        req := m.req
        rsp := ⟨code.toInt32, m.rsp.text.strncpy text text.length textFits⟩ }
  | foreign {type id rest value relation}
      (typed : type.viaI64 = some value) (related : id.viaU64 = some relation)
      (notRequest : messageType value ≠ rpctypeRequest)
      (notResponse : messageType value ≠ rpctypeResponse) :
      Accepted m (.array (type :: id :: rest)) (-2)
        { m with type := messageType value, relationId := relation.toUInt32 }

/-- An element that was read, and the array in front of and behind it. -/
private theorem drop_element {items : List Object} {item : Object} {index : Nat}
    (found : items[index]? = some item) : items.drop index = item :: items.drop (index + 1) := by
  obtain ⟨inside, rfl⟩ := List.getElem?_eq_some_iff.mp found
  exact List.drop_eq_getElem_cons inside

/-- Two elements of an array, from the reads that found them. -/
theorem two_elements {items : List Object} {first second : Object}
    (at0 : items[0]? = some first) (at1 : items[1]? = some second) :
    items = first :: second :: items.drop 2 := by
  rw [← drop_element at1, ← drop_element at0, List.drop_zero]

/-- Four elements of an array, from the reads that found them. -/
private theorem four_elements {items : List Object} {first second third fourth : Object}
    (at0 : items[0]? = some first) (at1 : items[1]? = some second)
    (at2 : items[2]? = some third) (at3 : items[3]? = some fourth) :
    ∃ rest, items = first :: second :: third :: fourth :: rest :=
  ⟨items.drop 4, by rw [← drop_element at3, ← drop_element at2, ← two_elements at0 at1]⟩

/-- A decoder run without violation read one of the accepted shapes. -/
theorem deserializeMeta_accepted {codec : Codec} {m m' : MetaRpc} {bytes : List UInt8}
    {object : Object} {ret : Int} (unpacked : codec.unpackNext bytes = some object)
    (ok : deserializeMeta codec m bytes = .ok (ret, m')) : Accepted m object ret m' := by
  simp only [deserializeMeta, unpacked] at ok
  obtain ⟨type, first, ok⟩ := ok_bind ok
  obtain ⟨value, typed, ok⟩ := ok_bind ok
  obtain ⟨id, second, ok⟩ := ok_bind ok
  obtain ⟨relation, related, ok⟩ := ok_bind ok
  obtain ⟨items, rfl, at0⟩ := element_ok first
  obtain ⟨_, same, at1⟩ := element_ok second
  cases same
  have typed := variant_ok typed
  have related := variant_ok related
  split_ifs at ok with isRequest isResponse
  · obtain ⟨third, third_read, ok⟩ := ok_bind ok
    obtain ⟨service, service_copied, ok⟩ := ok_bind ok
    obtain ⟨fourth, fourth_read, ok⟩ := ok_bind ok
    obtain ⟨method, method_copied, result⟩ := ok_bind ok
    obtain ⟨_, same, at2⟩ := element_ok third_read
    cases same
    obtain ⟨_, same, at3⟩ := element_ok fourth_read
    cases same
    obtain ⟨serviceBytes, serviceFits, rfl, rfl⟩ := copyText_ok service_copied
    obtain ⟨methodBytes, methodFits, rfl, rfl⟩ := copyText_ok method_copied
    obtain ⟨rest, rfl⟩ := four_elements at0 at1 at2 at3
    simp only [isRequest] at result
    cases result
    exact .request typed related isRequest serviceFits methodFits
  · obtain ⟨third, third_read, ok⟩ := ok_bind ok
    obtain ⟨code, coded, ok⟩ := ok_bind ok
    obtain ⟨fourth, fourth_read, ok⟩ := ok_bind ok
    obtain ⟨text, text_copied, result⟩ := ok_bind ok
    obtain ⟨_, same, at2⟩ := element_ok third_read
    cases same
    obtain ⟨_, same, at3⟩ := element_ok fourth_read
    cases same
    obtain ⟨textBytes, textFits, rfl, rfl⟩ := copyText_ok text_copied
    obtain ⟨rest, rfl⟩ := four_elements at0 at1 at2 at3
    simp only [isResponse] at result
    cases result
    exact .response typed related isResponse (variant_ok coded) textFits
  · cases ok
    rw [two_elements at0 at1]
    exact .foreign typed related isRequest isResponse

/-- The decoder is safe and strict exactly on decodable input. -/
theorem deserializeMeta_safe_iff (codec : Codec) (type : UInt32) (bytes : List UInt8) :
    SafeAndStrict codec type bytes ↔ Decodable (codec.unpackNext bytes) := by
  constructor
  · rintro ⟨ret, m, ok, strict⟩ object unpacked
    cases deserializeMeta_accepted unpacked ok with
    | request =>
        obtain ⟨⟨_, same, wellFormed⟩, _⟩ := strict rfl
        rw [unpacked] at same
        cases same
        exact .inl wellFormed
    | response =>
        obtain ⟨⟨_, same, wellFormed⟩, _⟩ := strict rfl
        rw [unpacked] at same
        cases same
        exact .inl wellFormed
    | foreign typed related notRequest notResponse =>
        exact .inr ⟨_, _, _, _, rfl, typed, by rw [related]; rfl, notRequest, notResponse⟩
  · intro decodable
    cases unpacked : codec.unpackNext bytes with
    | none => exact ⟨-1, .fresh type, by simp only [deserializeMeta, unpacked],
        fun zero => absurd zero (by decide)⟩
    | some object =>
        rcases decodable object unpacked with wellFormed | foreign
        · obtain ⟨first, id, third, fourth, rest, value, rfl, typed, relatedSome, operands⟩ :=
            id wellFormed
          obtain ⟨relation, related⟩ := Option.isSome_iff_exists.mp relatedSome
          rcases operands with ⟨request, ⟨service, rfl, serviceFits⟩, ⟨method, rfl, methodFits⟩⟩ |
            ⟨response, coded, ⟨text, rfl, textFits⟩⟩
          · refine ⟨0, _, deserializeMeta_request unpacked typed related request (by omega)
              (by omega), fun _ => ⟨⟨_, unpacked, wellFormed⟩, fun _ => ?_, fun other => ?_⟩⟩
            · exact ⟨CharArray.strncpy_zero_terminated (by omega),
                CharArray.strncpy_zero_terminated (by omega)⟩
            · exact absurd other request_ne_response
          · obtain ⟨code, coded⟩ := Option.isSome_iff_exists.mp coded
            refine ⟨0, _, deserializeMeta_response unpacked typed related response coded
              (by omega), fun _ => ⟨⟨_, unpacked, wellFormed⟩, fun other => ?_, fun _ => ?_⟩⟩
            · exact absurd other request_ne_response.symm
            · exact CharArray.strncpy_zero_terminated (by omega)
        · obtain ⟨first, id, rest, value, rfl, typed, relatedSome, notRequest, notResponse⟩ := foreign
          obtain ⟨relation, related⟩ := Option.isSome_iff_exists.mp relatedSome
          exact ⟨-2, _, deserializeMeta_foreign unpacked typed related notRequest notResponse,
            fun zero => absurd zero (by decide)⟩

/-- A packet whose meta data is the single integer 7 makes the decoder use it as an array. -/
theorem deserializeMeta_unsafe :
    ¬ ∀ type bytes, SafeAndStrict Wire.codec type bytes := by
  intro safe
  obtain ⟨ret, m, ok, _⟩ := safe rpctypeRequest [0x07]
  cases ok

end Sdpf.Dispatcher
