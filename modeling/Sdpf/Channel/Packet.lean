import Sdpf.Buffer.IOBuf
import Sdpf.Data.BigEndian
import Sdpf.Dispatcher.Decoder
import Sdpf.Stream.Deframer

/-!
# Packets

A packet is a `HeaderPacket` of twelve bytes, meta data and a body. `sendPacket`
builds one in a buffer of its own; `parse` looks for one at the front of the receive
buffer. Both are functions of `RpcChannelImp`.

`parse` reads memory through the pointer of `begin_read`, and nothing but its own
length check keeps it inside the buffer. It is therefore given the memory behind the
pointer: the bytes of the buffer, and beyond its end whatever happens to be there
(`wild`).
-/

namespace Sdpf.Channel

open Sdpf.Data Sdpf.Buffer Sdpf.Msgpack Sdpf.Dispatcher Sdpf.Stream

/-- The header in front of every packet, with its lengths in host order. -/
structure HeaderPacket where
  mark : List UInt8
  bodyLen : UInt16
  metaLen : UInt16
  type : UInt8
  mode : UInt8
  version : UInt8
  reserve : UInt8
deriving DecidableEq, Repr

/-- The characters "ERPC". -/
def erpc : List UInt8 := [0x45, 0x52, 0x50, 0x43]

namespace HeaderPacket

/-- `sizeof(HeaderPacket)`. -/
def size : Nat := 12

/-- The struct as it lies in memory, lengths in network order. -/
def encode (header : HeaderPacket) : List UInt8 :=
  header.mark ++ beBytes 2 header.bodyLen.toNat ++ beBytes 2 header.metaLen.toNat ++
    [header.type, header.mode, header.version, header.reserve]

/-- The struct found at a pointer. -/
def decode (bytes : List UInt8) : HeaderPacket where
  mark := slice bytes 0 4
  bodyLen := UInt16.ofNat (beValue (slice bytes 4 2))
  metaLen := UInt16.ofNat (beValue (slice bytes 6 2))
  type := bytes.getD 8 0
  mode := bytes.getD 9 0
  version := bytes.getD 10 0
  reserve := bytes.getD 11 0

/-- The header `send_packet` writes, before it knows the lengths. -/
def blank (type : UInt32) : HeaderPacket where
  mark := erpc
  bodyLen := 0
  metaLen := 0
  type := type.toUInt8
  mode := 1
  version := 0x10
  reserve := 0x23

/-- The header `parse` goes on with. -/
def Accepted (header : HeaderPacket) : Prop :=
  header.mark = erpc ∧ header.mode = 1 ∧ header.version = 0x10

instance (header : HeaderPacket) : Decidable header.Accepted := by
  unfold Accepted
  infer_instance

/-- The size of the packet, as an unbounded number. -/
def total (header : HeaderPacket) : Nat :=
  size + header.metaLen.toNat + header.bodyLen.toNat

/-- `pack_len`, a variable of 16 bits. -/
def packLen (header : HeaderPacket) : UInt16 := UInt16.ofNat header.total

end HeaderPacket

/-- A message of the application. When `serialize` succeeds it returns the number of
bytes it wrote, and these fit into the space it was offered. -/
structure RpcMessage where
  serialize : Nat → Int × List UInt8
  deserialize : List UInt8 → Int
  honest : ∀ offered, 0 < (serialize offered).1 →
    (serialize offered).1 = (serialize offered).2.length ∧ (serialize offered).2.length ≤ offered

/-- A message of one byte that can always be decoded. -/
def RpcMessage.byte (byte : UInt8) : RpcMessage where
  serialize offered := if offered = 0 then (0, []) else (1, [byte])
  deserialize _ := 0
  honest offered := by
    split
    · simp
    · simp only [List.length_singleton]
      omega

/-- Store a length through the header pointer of a packet under construction. -/
def setLength (pb : IOBuf) (offset : Nat) (length : Int) : IOBuf :=
  { pb with buff := store pb.buff offset (beBytes 2 length.toNat) }

/-- A new buffer with the header in it. -/
def packHeader (type : UInt32) : IOBuf :=
  (((IOBuf.create IOBuf.initialSize).fill (HeaderPacket.blank type).encode).hasWritten
    HeaderPacket.size).2

/-- The part of `send_packet` up to the meta data. -/
def packMeta (codec : Codec) (m : MetaRpc) : Except Int IOBuf :=
  let pb := packHeader m.type
  let serialized := serializeMeta codec m
  if serialized.1 > 0 then
    .ok (setLength ((pb.fill serialized.2).hasWritten serialized.1.toNat).2 6 serialized.1)
  else
    .error (-1)

/-- The part of `send_packet` that writes the body. -/
def packBody (pb : IOBuf) : Option RpcMessage → Except Int IOBuf
  | none => .ok pb
  | some msg =>
      let serialized := msg.serialize pb.writableBytes
      if serialized.1 > 0 then
        .ok (setLength ((pb.fill serialized.2).hasWritten serialized.1.toNat).2 4 serialized.1)
      else
        .error (-2)

/-- The packet `send_packet` hands to the connection. -/
def buildPacket (codec : Codec) (m : MetaRpc) (msg : Option RpcMessage) : Except Int IOBuf := do
  let pb ← packMeta codec m
  packBody pb msg

/-- `send_packet` on a connection that answers `send` as given. -/
def sendPacket (codec : Codec) (send : IOBuf → Int) (m : MetaRpc) (msg : Option RpcMessage) : Int :=
  match buildPacket codec m msg with
  | .error ret => ret
  | .ok pb => if 0 ≠ send pb then -3 else 0

/-- The arguments of `process_request` or `process_response`. -/
inductive Packet where
  | request (id : UInt32) (service method : CharArray 64) (body : List UInt8)
  | response (id : UInt32) (code : Int32) (text : CharArray 64) (body : List UInt8)
deriving DecidableEq, Repr

/-- The call `parse` makes for decoded meta data, if any. -/
def dispatch (m : MetaRpc) (body : List UInt8) : Option Packet :=
  if m.type = rpctypeRequest then
    some (.request m.relationId m.req.service m.req.method body)
  else if m.type = rpctypeResponse then
    some (.response m.relationId m.rsp.code m.rsp.text body)
  else
    none

/-- The bytes at a pointer, some way behind it. -/
def peek (memory : Nat → UInt8) (start count : Nat) : List UInt8 :=
  (List.range' start count).map memory

/-- How far `parse` gets with the header. -/
inductive Progress where
  | incomplete
  | malformed
  | complete (header : HeaderPacket)
deriving DecidableEq, Repr

/-- `parse` up to the check that the whole packet has arrived. -/
def checkHeader (remainLen : Nat) (memory : Nat → UInt8) : Progress :=
  if remainLen < HeaderPacket.size then
    .incomplete
  else
    let header := HeaderPacket.decode (peek memory 0 HeaderPacket.size)
    if ¬ header.Accepted then
      .malformed
    else if remainLen < header.packLen.toNat then
      .incomplete
    else
      .complete header

/-- `parse` on `remainLen` readable bytes at a pointer: the returned value, and the
packet it dispatched. -/
def parseAt (codec : Codec) (remainLen : Nat) (memory : Nat → UInt8) :
    Access (Int × Option Packet) :=
  match checkHeader remainLen memory with
  | .incomplete => .ok (0, none)
  | .malformed => .ok (-1, none)
  | .complete header => do
      let metaBytes := peek memory HeaderPacket.size header.metaLen.toNat
      let decoded ← deserializeMeta codec (.fresh header.type.toUInt32) metaBytes
      if 0 ≠ decoded.1 then
        .ok (-2, none)
      else
        let body := peek memory (HeaderPacket.size + header.metaLen.toNat) header.bodyLen.toNat
        .ok (header.packLen.toNat, dispatch decoded.2 body)

/-- The memory at `begin_read`. -/
def bufferMemory (wild : Nat → UInt8) (b : IOBuf) (offset : Nat) : UInt8 :=
  (b.buff[b.readIndex + offset]?).getD (wild (b.readIndex + offset))

def parse (codec : Codec) (wild : Nat → UInt8) (b : IOBuf) : Access (Int × Option Packet) :=
  parseAt codec b.readableBytes (bufferMemory wild b)

/-- The memory of a block of bytes, zero beyond its end. -/
def blockMemory (bytes : List UInt8) (offset : Nat) : UInt8 := bytes.getD offset 0

/-- What a sequence of received bytes amounts to, without a buffer around it. -/
def look (codec : Codec) (bytes : List UInt8) : Verdict Packet :=
  match parseAt codec bytes.length (blockMemory bytes) with
  | .ok (ret, some packet) => .item ret.toNat packet
  | .ok (ret, none) => if ret = 0 then .more else .bad
  | .error _ => .bad

end Sdpf.Channel
