import Sdpf.Dispatcher.Decoder

/-!
# The bodies of the sample service

`Msg_Echo` and `Msg_Notify` have the same two fields and the same code. Their decoder
trusts the body as that of the meta data does (`deserialize_safe_iff`), and copies the text
without its terminator over whatever the object holds: messages received into one object
arrive as sent exactly as long as they do not get shorter (`receivedFaithfully_iff`).
-/

namespace Sdpf.Dispatcher

open Sdpf.Data Sdpf.Msgpack

/-- The fields of `Msg_Echo` and of `Msg_Notify`. -/
structure MsgFields where
  logId : Int32
  msg : CharArray 64
deriving DecidableEq, Repr

/-- The common body of the two `serialize`. -/
def serializeFields (codec : Codec) (m : MsgFields) : Int × List UInt8 :=
  let packed := codec.packArray 2 ++ codec.packInt m.logId ++
    codec.packBinWithBody m.msg.text.bytes
  (packed.length, packed)

/-- `memcpy(field, item.via.bin.ptr, item.via.bin.size)`. -/
def copyBin (field : CharArray 64) (item : Object) : Access (CharArray 64) := do
  let bytes ← variant item.viaBin
  if within : bytes.length ≤ 64 then
    .ok (field.memcpy bytes within)
  else
    .error .overflow

/-- The common body of the two `deserialize`: the returned status, and the object after it. -/
def deserializeFields (codec : Codec) (m : MsgFields) (bytes : List UInt8) :
    Access (Int × MsgFields) :=
  match codec.unpackNext bytes with
  | none => .ok (-1, m)
  | some object =>
      if object.viaArray.isNone then
        .ok (-2, m)
      else do
        let logId ← variant (← element object 0).viaI64
        let m := { m with logId := logId.toInt32 }
        let msg ← copyBin m.msg (← element object 1)
        .ok (0, { m with msg := msg })

def MsgEcho.serialize : Codec → MsgFields → Int × List UInt8 := serializeFields

def MsgEcho.deserialize : Codec → MsgFields → List UInt8 → Access (Int × MsgFields) :=
  deserializeFields

def MsgNotify.serialize : Codec → MsgFields → Int × List UInt8 := serializeFields

def MsgNotify.deserialize : Codec → MsgFields → List UInt8 → Access (Int × MsgFields) :=
  deserializeFields

/-- The two message classes of the sample service. -/
inductive MsgClass where
  | echo
  | notify
deriving DecidableEq, Repr

namespace MsgClass

def serialize : MsgClass → Codec → MsgFields → Int × List UInt8
  | echo => MsgEcho.serialize
  | notify => MsgNotify.serialize

def deserialize : MsgClass → Codec → MsgFields → List UInt8 → Access (Int × MsgFields)
  | echo => MsgEcho.deserialize
  | notify => MsgNotify.deserialize

/-- Both classes serialise their fields alike. -/
theorem serialize_eq (cls : MsgClass) : cls.serialize = serializeFields := by
  cases cls <;> rfl

/-- Both classes read their fields alike. -/
theorem deserialize_eq (cls : MsgClass) : cls.deserialize = deserializeFields := by
  cases cls <;> rfl

end MsgClass

/-- The body of a message: an integer and at most 63 bytes, and whatever follows them. -/
def IsBody (object : Object) : Prop :=
  ∃ logId item rest value data, object = .array (logId :: item :: rest) ∧
    logId.viaI64 = some value ∧ item.viaBin = some data ∧ data.length ≤ 63

/-- A body whose bytes leave a terminator in a text that had one. -/
def BodyFor (m : MsgFields) (object : Object) : Prop :=
  ∃ logId item rest value data, object = .array (logId :: item :: rest) ∧
    logId.viaI64 = some value ∧ item.viaBin = some data ∧ data.length ≤ 63 ∧
    (m.msg.Terminated → 0 ∈ data ∨ 0 ∈ m.msg.bytes.drop data.length)

/-- Inputs that unpack to nothing, to no array, or to a body for the object. -/
def BodyDecodable (m : MsgFields) (unpacked : Option Object) : Prop :=
  ∀ object, unpacked = some object → object.viaArray = none ∨ BodyFor m object

/-- The decoder commits no violation, accepts nothing but a body, and leaves a terminator
where there was one. -/
def SafeBody (cls : MsgClass) (codec : Codec) (m : MsgFields) (bytes : List UInt8) : Prop :=
  ∃ ret m', cls.deserialize codec m bytes = .ok (ret, m') ∧
    (ret = 0 → ∃ object, codec.unpackNext bytes = some object ∧ IsBody object) ∧
    (m.msg.Terminated → m'.msg.Terminated)

section Decode

variable {codec : Codec} {m m' : MsgFields} {bytes : List UInt8}

/-- An integer and bytes that fit are stored. -/
theorem deserializeFields_body {logId item : Object} {rest : List Object} {value : Int64}
    {data : List UInt8} (unpacked : codec.unpackNext bytes = some (.array (logId :: item :: rest)))
    (number : logId.viaI64 = some value) (binary : item.viaBin = some data)
    (within : data.length ≤ 64) :
    deserializeFields codec m bytes = .ok (0, ⟨value.toInt32, m.msg.memcpy data within⟩) := by
  simp only [deserializeFields, unpacked, Object.viaArray, Option.isNone_some, Bool.false_eq_true,
    if_false, element_array, List.getElem?_cons_zero, List.getElem?_cons_succ, bind, Except.bind,
    number, variant, copyBin, binary, dif_pos within]

/-- Nothing else is copied, and only if it fits. -/
theorem copyBin_ok {field copied : CharArray 64} {item : Object}
    (ok : copyBin field item = .ok copied) :
    ∃ data, ∃ within : data.length ≤ 64,
      item.viaBin = some data ∧ copied = field.memcpy data within := by
  obtain ⟨data, binary, ok⟩ := ok_bind ok
  split at ok
  · next within =>
      cases ok
      exact ⟨data, within, variant_ok binary, rfl⟩
  · cases ok

/-- A decoder run without violation on an array has stored its first two elements. -/
theorem deserializeFields_ok {object : Object} {ret : Int}
    (unpacked : codec.unpackNext bytes = some object) (array : object.viaArray ≠ none)
    (ok : deserializeFields codec m bytes = .ok (ret, m')) :
    ∃ logId item rest value data, ∃ within : data.length ≤ 64,
      object = .array (logId :: item :: rest) ∧ logId.viaI64 = some value ∧
        item.viaBin = some data ∧ ret = 0 ∧ m' = ⟨value.toInt32, m.msg.memcpy data within⟩ := by
  simp only [deserializeFields, unpacked, Option.isNone_iff_eq_none, if_neg array] at ok
  obtain ⟨logId, first, ok⟩ := ok_bind ok
  obtain ⟨value, number, ok⟩ := ok_bind ok
  obtain ⟨item, second, ok⟩ := ok_bind ok
  obtain ⟨copied, binary, result⟩ := ok_bind ok
  obtain ⟨items, rfl, at0⟩ := element_ok first
  obtain ⟨_, same, at1⟩ := element_ok second
  cases same
  obtain ⟨data, within, isBin, rfl⟩ := copyBin_ok binary
  cases result
  exact ⟨logId, item, items.drop 2, value, data, within, by rw [← two_elements at0 at1],
    variant_ok number, isBin, rfl, rfl⟩

end Decode

/-- The decoders are safe exactly on input that is no array or a body for the object. -/
theorem deserialize_safe_iff (cls : MsgClass) (codec : Codec) (m : MsgFields)
    (bytes : List UInt8) :
    SafeBody cls codec m bytes ↔ BodyDecodable m (codec.unpackNext bytes) := by
  unfold SafeBody
  rw [cls.deserialize_eq]
  constructor
  · rintro ⟨ret, m', ok, strict, kept⟩ object unpacked
    refine or_iff_not_imp_left.mpr fun array => ?_
    obtain ⟨logId, item, rest, value, data, within, rfl, number, binary, rfl, rfl⟩ :=
      deserializeFields_ok unpacked array ok
    obtain ⟨_, same, _, _, _, _, short, isArray, _, isBin, few⟩ := strict rfl
    rw [unpacked] at same
    cases same
    cases isArray
    rw [binary] at isBin
    cases isBin
    exact ⟨logId, item, rest, value, data, rfl, number, binary, few, fun terminated =>
      (m.msg.memcpy_terminated_iff within).mp (kept terminated)⟩
  · intro decodable
    cases unpacked : codec.unpackNext bytes with
    | none =>
        exact ⟨-1, m, by simp only [deserializeFields, unpacked],
          fun zero => absurd zero (by decide), id⟩
    | some object =>
        rcases decodable object unpacked with other | body
        · refine ⟨-2, m, ?_, fun zero => absurd zero (by decide), id⟩
          simp only [deserializeFields, unpacked, other, Option.isNone_none, if_true]
        · obtain ⟨logId, item, rest, value, data, rfl, number, binary, few, left⟩ := body
          refine ⟨0, _, deserializeFields_body unpacked number binary (by omega),
            fun _ => ⟨_, rfl, logId, item, rest, value, data, rfl, number, binary, few⟩,
            fun terminated => ?_⟩
          exact (m.msg.memcpy_terminated_iff (by omega)).mpr (left terminated)

/-- A body that is an array of one number makes the decoder read a second element. -/
theorem deserialize_unsafe :
    ¬ ∀ cls m bytes, SafeBody cls Wire.codec m bytes := by
  intro safe
  obtain ⟨ret, m', ok, _⟩ := safe .echo ⟨0, .zero 64⟩ [0x91, 0x07]
  cases ok

/-- The messages are received into one object, and after each of them it holds that message:
its number, and its text as a C string. -/
def ReceivedFaithfully (cls : MsgClass) (codec : Codec) : MsgFields → List MsgFields → Prop
  | _, [] => True
  | receiver, sent :: rest => ∃ next,
      cls.deserialize codec receiver (cls.serialize codec sent).2 = .ok (0, next) ∧
        next.logId = sent.logId ∧ next.msg.text = sent.msg.text ∧
        ReceivedFaithfully cls codec next rest

/-- No message is shorter than an earlier one. -/
def NeverShorter (sents : List MsgFields) : Prop :=
  sents.Pairwise fun earlier later => earlier.msg.text.strlen ≤ later.msg.text.strlen

/-- The array holds a zero byte wherever one of the texts ends. -/
def EndsReady (receiver : MsgFields) (sents : List MsgFields) : Prop :=
  ∀ sent ∈ sents, receiver.msg.bytes[sent.msg.text.strlen]? = some 0

section Receive

variable {codec : Codec} {receiver sent : MsgFields}

/-- A message that was serialised is decoded, its text laid over what was there. -/
theorem deserializeFields_sent (law : codec.Lawful) (receiver : MsgFields)
    (within : sent.msg.text.bytes.length ≤ 64) :
    deserializeFields codec receiver (serializeFields codec sent).2 =
      .ok (0, ⟨sent.logId, receiver.msg.memcpy sent.msg.text.bytes within⟩) := by
  have short : ∀ scalar ∈ [Scalar.int sent.logId, .bin sent.msg.text.bytes], scalar.Short := by
    intro scalar member
    simp only [List.mem_cons, List.not_mem_nil, or_false] at member
    rcases member with rfl | rfl
    · exact Nat.zero_le _
    · exact Nat.le_trans within (by decide)
  have unpacked := law.unpack_packed _ [] (by simp) short
  simp only [List.map_cons, List.map_nil, Scalar.object, List.flatMap_cons, List.flatMap_nil,
    List.append_nil, Codec.pack, List.length_cons, List.length_nil, Nat.reduceAdd,
    ← List.append_assoc] at unpacked
  rw [serializeFields, deserializeFields_body unpacked (Object.viaI64_integer _) rfl within,
    Int32.toInt32_toInt64]

/-- Receiving a message leaves zero bytes only at and behind its end. -/
theorem endsReady_memcpy {sents : List MsgFields} (within : sent.msg.text.bytes.length ≤ 64) :
    EndsReady ⟨sent.logId, receiver.msg.memcpy sent.msg.text.bytes within⟩ sents ↔
      (∀ later ∈ sents, sent.msg.text.strlen ≤ later.msg.text.strlen) ∧
        EndsReady receiver sents := by
  simp only [EndsReady, CharArray.memcpy_zero_iff]
  exact ⟨fun ready => ⟨fun later member => (ready later member).1,
    fun later member => (ready later member).2⟩,
    fun ready later member => ⟨ready.1 later member, ready.2 later member⟩⟩

/-- Messages sent one after another into one object arrive as they were sent exactly if none
of them is shorter than an earlier one, and the object held a zero byte wherever one ends. -/
theorem receivedFaithfully_iff (cls : MsgClass) (law : codec.Lawful) (receiver : MsgFields)
    {sents : List MsgFields} (terminated : ∀ sent ∈ sents, sent.msg.Terminated) :
    ReceivedFaithfully cls codec receiver sents ↔
      NeverShorter sents ∧ EndsReady receiver sents := by
  induction sents generalizing receiver with
  | nil => exact iff_of_true trivial ⟨.nil, fun _ member => absurd member List.not_mem_nil⟩
  | cons sent rest ih =>
      have room := (terminated sent List.mem_cons_self).strlen_lt
      have within := sent.msg.length_text_le
      have decoded := deserializeFields_sent law receiver within
      have here := receiver.msg.text_memcpy_iff sent.msg.text room within
      have others := ih ⟨sent.logId, receiver.msg.memcpy sent.msg.text.bytes within⟩
        fun later member => terminated later (List.mem_cons_of_mem _ member)
      rw [endsReady_memcpy within] at others
      simp only [ReceivedFaithfully, NeverShorter, List.pairwise_cons, EndsReady,
        List.forall_mem_cons, cls.deserialize_eq, cls.serialize_eq] at others ⊢
      rw [decoded, ← here]
      constructor
      · rintro ⟨next, same, _, text, rest⟩
        cases same
        obtain ⟨ordered, longer, ready⟩ := others.mp rest
        exact ⟨⟨longer, ordered⟩, text, ready⟩
      · rintro ⟨⟨longer, ordered⟩, text, ready⟩
        exact ⟨_, rfl, rfl, text, others.mpr ⟨ordered, longer, ready⟩⟩

end Receive

/-- A message with a text in a zeroed field. -/
def textMsg (logId : Int32) (text : List UInt8) : MsgFields where
  logId := logId
  msg := (CharArray.zero 64).strncpy text (min text.length 63)
    (Nat.le_trans (Nat.min_le_right _ _) (Nat.le_succ 63))

/-- The text of the message is terminated. -/
theorem textMsg_terminated (logId : Int32) (text : List UInt8) :
    (textMsg logId text).msg.Terminated :=
  CharArray.strncpy_zero_terminated (Nat.lt_succ_of_le (Nat.min_le_right _ _))

/-- A text and a longer one, received into a zeroed object. -/
theorem receivedFaithfully_iff_longer :
    ReceivedFaithfully .notify Wire.codec ⟨0, .zero 64⟩ [textMsg 1 [0x61], textMsg 2 [0x62, 0x63]] ↔
      NeverShorter [textMsg 1 [0x61], textMsg 2 [0x62, 0x63]] ∧
        EndsReady ⟨0, .zero 64⟩ [textMsg 1 [0x61], textMsg 2 [0x62, 0x63]] := by
  refine receivedFaithfully_iff .notify Wire.codec_lawful _ ?_
  simp only [List.forall_mem_cons, textMsg_terminated, true_and]
  exact fun _ member => absurd member List.not_mem_nil

/-- A text received over a longer one keeps the end of the longer one. -/
theorem received_unfaithfully :
    ¬ ∀ cls (receiver : MsgFields) (sents : List MsgFields), receiver.msg.Terminated →
      (∀ sent ∈ sents, sent.msg.Terminated) →
        ReceivedFaithfully cls Wire.codec receiver sents := by
  intro faithful
  have terminated : ∀ sent ∈ [textMsg 1 [0x61, 0x62, 0x63], textMsg 2 [0x64]],
      sent.msg.Terminated := by
    simp only [List.forall_mem_cons, textMsg_terminated, true_and]
    exact fun _ member => absurd member List.not_mem_nil
  obtain ⟨first, one, _, _, second, two, _, text, _⟩ := faithful .notify ⟨0, .zero 64⟩
    [textMsg 1 [0x61, 0x62, 0x63], textMsg 2 [0x64]]
    (List.mem_replicate.mpr ⟨by decide, rfl⟩) terminated
  rw [MsgClass.deserialize_eq, MsgClass.serialize_eq,
    deserializeFields_sent Wire.codec_lawful _ (CharArray.length_text_le _)] at one two
  cases one
  cases two
  exact absurd (congrArg CStr.bytes text) (by decide +kernel)

end Sdpf.Dispatcher
