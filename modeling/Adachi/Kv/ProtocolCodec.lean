import Adachi.Kv.Packet
import Adachi.Lib.ByteOrder

/-!
# `adachi::network::kv::protocol::ProtocolCodec`

The three layers of conversion of `src/kv/protocolcodec.cpp`: byte flow to
`Packet`, `Packet` to `KVRequest` or `KVResponse`, and back.

A function of the source that returns `false` or fills its output parameters
and returns `true` is here a function to `Option`: no caller reads an output
parameter after `false`.  Pointers are never null in these calls, so the null
checks have no counterpart.  A pointer into a string is the list of the bytes
from there on, a moving `uint64_t& offset` is returned with the value.

The byte order of the machine is the instance `Host`; `isBigEnd` finds it out
the way the source does, by looking at the first byte of an integer in memory.
-/

namespace Adachi.Kv

open Adachi.Io Memory ByteOrder

section Flow

variable [Host]

/-! ## Byte order -/

def isBigEnd : Bool := (hostBytes (0x1234 : UInt16)).head? == some 0x12

variable {T : Type} [WireInt T]

/-- `NToH`, an overload for each width: `ntohs`, `ntohl`, or a swap of the
eight bytes unless the host is big-endian. -/
def nToH (value : T) : T := if isBigEnd then value else bswap value

/-- `HToN`, an overload for each width. -/
def hToN (value : T) : T := if isBigEnd then value else bswap value

/-! ## Moving integers between a flow and the host -/

/-- `WriteFlowToHost(src, len, offset, store)` -/
def writeFlowToHost (T : Type) [WireInt T] (src : Bytes) (len offset : Nat) :
    Option (T × Nat) :=
  if offset + WireInt.size T > len then none
  else some (nToH (hostLoad (slice src offset (WireInt.size T))),
    offset + WireInt.size T)

/-- `WriteHostToFlow(src, offset, store, len)`; the flow and the next offset. -/
def writeHostToFlow (src : T) (offset : Nat) (store : Bytes) (len : Nat) :
    Option (Bytes × Nat) :=
  if WireInt.size T + offset > len then none
  else some (memmove store offset (hostBytes (hToN src)), offset + WireInt.size T)

/-! ## Flow and packet -/

/-- `DecodeFlowToPacket(const char* src, uint64_t len, Packet* store)` -/
def decodeFlowToPacket (src : Bytes) (len : Nat) : Option Packet :=
  if len < sizeofPacketHead then none
  else do
    let (magic, offset) ← writeFlowToHost UInt32 src len 0
    let (version, offset) ← writeFlowToHost UInt16 src len offset
    let (msgType, offset) ← writeFlowToHost UInt16 src len offset
    let (opcode, offset) ← writeFlowToHost UInt16 src len offset
    let (status, offset) ← writeFlowToHost UInt16 src len offset
    let (bodyLength, offset) ← writeFlowToHost UInt32 src len offset
    let (requestId, offset) ← writeFlowToHost UInt64 src len offset
    if bodyLength.toNat + sizeofPacketHead > len then none
    else
      some
        { head := { magic, version, msgType, opcode, status, bodyLength, requestId }
          body := slice src offset bodyLength.toNat }

/-- `DecodeFlowToPacket(std::string_view src, Packet* store)` -/
def decodeFlowToPacketView (src : Bytes) : Option Packet :=
  decodeFlowToPacket src src.length

/-- `EncodePacketToFlow(const Packet* src, char* store, uint64_t len)` -/
def encodePacketToFlowAt (src : Packet) (store : Bytes) (len : Nat) : Option Bytes :=
  if len < sizeofPacketHead + src.body.length then none
  else do
    let (store, offset) ← writeHostToFlow src.head.magic 0 store len
    let (store, offset) ← writeHostToFlow src.head.version offset store len
    let (store, offset) ← writeHostToFlow src.head.msgType offset store len
    let (store, offset) ← writeHostToFlow src.head.opcode offset store len
    let (store, offset) ← writeHostToFlow src.head.status offset store len
    let (store, offset) ← writeHostToFlow src.head.bodyLength offset store len
    let (store, offset) ← writeHostToFlow src.head.requestId offset store len
    some (memmove store offset src.body)

/-- `EncodePacketToFlow(const Packet* src, std::string& store)` -/
def encodePacketToFlow (src : Packet) (store : Bytes) : Option Bytes :=
  let store := resize 0 store (sizeofPacketHead + src.body.length)
  encodePacketToFlowAt src store store.length

/-! ## Building and reading a body -/

def appendBytes (dst src : Bytes) (size : Nat) : Bytes :=
  if size = 0 then dst
  else memmove (resize 0 dst (dst.length + size)) dst.length (src.take size)

def appendHostInteger (dst : Bytes) (value : T) : Bytes :=
  appendBytes dst (hostBytes (hToN value)) (WireInt.size T)

def readBodyInteger (T : Type) [WireInt T] (body : Bytes) (offset : Nat) :
    Option (T × Nat) :=
  writeFlowToHost T body body.length offset

def readBodyString (body : Bytes) (offset : Nat) (len : UInt32) :
    Option (Bytes × Nat) :=
  if offset + len.toNat > body.length then none
  else some (slice body offset len.toNat, offset + len.toNat)

/-! ## Packet and request -/

def encodeKVRequestToPacket (src : KVRequest) : Option Packet := do
  let body ←
    if src.opcode = kPing then some []
    else if src.opcode = kPut then
      let keyLength := UInt32.ofNat src.key.length
      let valueLength := UInt32.ofNat src.value.length
      if keyLength = 0 ∨ keyLength > kMaxKeyLength ∨ valueLength > kMaxValueLength then
        none
      else
        let body := appendHostInteger [] keyLength
        let body := appendHostInteger body valueLength
        let body := appendBytes body src.key src.key.length
        some (appendBytes body src.value src.value.length)
    else if src.opcode = kGet ∨ src.opcode = kDel then
      let keyLength := UInt32.ofNat src.key.length
      if keyLength = 0 ∨ keyLength > kMaxKeyLength then none
      else
        let body := appendHostInteger [] keyLength
        some (appendBytes body src.key src.key.length)
    else none
  if body.length > kMaxBodyLength.toNat then none
  else
    some
      { head :=
          { magic := kDefaultMagic
            version := kDefaultVersion
            msgType := kRequest
            opcode := src.opcode
            status := kOk
            bodyLength := UInt32.ofNat body.length
            requestId := 0 }
        body := body }

def decodePacketToKVRequest (src : Packet) : Option KVRequest :=
  if src.head.msgType ≠ kRequest then none
  else if src.head.bodyLength.toNat ≠ src.body.length then none
  else if src.head.bodyLength > kMaxBodyLength then none
  else if src.head.opcode = kPing then
    if src.body = [] then some ⟨src.head.opcode, [], [], []⟩ else none
  else if src.head.opcode = kPut then do
    let (keyLength, offset) ← readBodyInteger UInt32 src.body 0
    let (valueLength, offset) ← readBodyInteger UInt32 src.body offset
    if keyLength = 0 ∨ keyLength > kMaxKeyLength ∨ valueLength > kMaxValueLength then
      none
    let (key, offset) ← readBodyString src.body offset keyLength
    let (value, offset) ← readBodyString src.body offset valueLength
    if offset = src.body.length then some ⟨src.head.opcode, key, value, []⟩ else none
  else if src.head.opcode = kGet ∨ src.head.opcode = kDel then do
    let (keyLength, offset) ← readBodyInteger UInt32 src.body 0
    if keyLength = 0 ∨ keyLength > kMaxKeyLength then none
    let (key, offset) ← readBodyString src.body offset keyLength
    if offset = src.body.length then some ⟨src.head.opcode, key, [], []⟩ else none
  else none

/-! ## Packet and response -/

/-- The body a response carries when it carries none. -/
def emptyBodyResponse (src : Packet) : Option KVResponse :=
  if src.body = [] then some ⟨src.head.status, [], [], []⟩ else none

def decodePacketToKVResponse (src : Packet) : Option KVResponse :=
  if src.head.opcode = kPing ∨ src.head.opcode = kPut ∨ src.head.opcode = kDel then
    emptyBodyResponse src
  else if src.head.opcode = kGet then
    if src.head.status ≠ kOk then emptyBodyResponse src
    else do
      let (valueLength, offset) ← readBodyInteger UInt32 src.body 0
      if valueLength > kMaxValueLength then none
      let (value, offset) ← readBodyString src.body offset valueLength
      if offset = src.body.length then some ⟨src.head.status, [], value, []⟩ else none
  else emptyBodyResponse src

def encodeKVResponseToPacket (src : KVResponse) (opcode : UInt16)
    (requestId : UInt64) : Option Packet := do
  let body ←
    if opcode = kGet ∧ src.status = kOk then
      let valueLength := UInt32.ofNat src.value.length
      if valueLength > kMaxValueLength then none
      else
        let body := appendHostInteger [] valueLength
        some (appendBytes body src.value src.value.length)
    else some []
  if body.length > kMaxBodyLength.toNat then none
  else
    some
      { head :=
          { magic := kDefaultMagic
            version := kDefaultVersion
            msgType := kResponse
            opcode := opcode
            status := src.status
            bodyLength := UInt32.ofNat body.length
            requestId := requestId }
        body := body }

end Flow

end Adachi.Kv
