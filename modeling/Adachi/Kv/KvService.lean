import Adachi.Io.Buffer
import Adachi.Kv.KvStore
import Adachi.Kv.ProtocolCodec

/-!
# `adachi::network::kv::KVService`

The four callbacks of `src/kv/kvservice.cpp` and `ShouldEcho`.  A callback
that fills `*result` and returns `true` is a function to `Option`.

`ShouldEcho` is cut at the points where it takes and releases `mtx_`:
`echoRequest` is what it does before, `StoreCall.exec` the part under the lock,
and `echoReply` what it does after.  A request that needs no access to the
store goes from the first part to the last directly.
-/

namespace Adachi.Kv

open Adachi.Io ByteOrder

def isSupportedOpcode (opcode : UInt16) : Bool :=
  opcode == kPing || opcode == kPut || opcode == kGet || opcode == kDel

/-- The part of `ShouldEcho` that runs under `mtx_`. -/
inductive StoreCall where
  | put (request : KVRequest)
  | get (request : KVRequest)
  | del (request : KVRequest)
  deriving DecidableEq, Repr

def StoreCall.exec (kvstore : KVStore) : StoreCall → KVResponse × KVStore
  | .put request => kvstore.put request
  | .get request => kvstore.get request
  | .del request => kvstore.del request

/-- The callbacks a service is made with.  None of the default ones, and none
of the callers, changes the buffer but `BodyCheck`. -/
structure KVService where
  headcheck : Buffer → Bool
  shouldget : Buffer → Bool
  bodycheck : Buffer → Option Packet × Buffer
  shouldecho : Buffer → Packet → Bool

section Callbacks

variable [Host]

/-! ## The default callbacks -/

/-- `true` rejects the connection. -/
def kDefaultHeadCheck (buffer : Buffer) : Bool :=
  if buffer.size < sizeofPacketHead then false
  else
    match decodeFlowToPacket buffer.cReadData sizeofPacketHead with
    | none => true
    | some packet =>
        packet.head.magic != kDefaultMagic
          || packet.head.version != kDefaultVersion
          || packet.head.msgType != kRequest
          || packet.head.bodyLength > kMaxBodyLength

def kDefaultShouldGet (buffer : Buffer) : Bool :=
  if buffer.size < sizeofPacketHead then false
  else
    match decodeFlowToPacket buffer.cReadData sizeofPacketHead with
    | none => false
    | some packet => buffer.size ≥ sizeofPacketHead + packet.head.bodyLength.toNat

/-- The packet stored in `*result`, and the buffer without the frame.  The call
of `ReadBuffer` does not throw: the size has just been checked. -/
def kDefaultBodyCheck (buffer : Buffer) : Option Packet × Buffer :=
  if buffer.size < sizeofPacketHead then (none, buffer)
  else
    match decodeFlowToPacket buffer.cReadData sizeofPacketHead with
    | none => (none, buffer)
    | some packetHead =>
        let totalLength := sizeofPacketHead + packetHead.head.bodyLength.toNat
        if buffer.size < totalLength then (none, buffer)
        else
          match buffer.readBufferLen totalLength with
          | none => (none, buffer)
          | some (raw, buffer) =>
              match decodeFlowToPacketView raw with
              | none => (none, buffer)
              | some packet =>
                  if !isSupportedOpcode packet.head.opcode then
                    (some { packet with
                      head := { packet.head with status := kUnsupportedOpcode } }, buffer)
                  else if decodePacketToKVRequest packet = none then
                    (some { packet with
                      head := { packet.head with status := kBadRequest } }, buffer)
                  else (some packet, buffer)

def kDefaultShouldEcho (_buffer : Buffer) (_result : Packet) : Bool := true

namespace KVService

/-- `KVService` made with the default arguments. -/
def default : KVService where
  headcheck := kDefaultHeadCheck
  shouldget := kDefaultShouldGet
  bodycheck := kDefaultBodyCheck
  shouldecho := kDefaultShouldEcho

/-! ## The interface -/

def headCheck (service : KVService) (buffer : Buffer) : Bool := service.headcheck buffer

def shouldGet (service : KVService) (buffer : Buffer) : Bool := service.shouldget buffer

def bodyCheck (service : KVService) (buffer : Buffer) : Option Packet × Buffer :=
  service.bodycheck buffer

/-- `ShouldEcho` up to the access to the store: a response, or the call that
makes one. -/
def echoRequest (requestPacket : Packet) : KVResponse ⊕ StoreCall :=
  let response : KVResponse := ⟨requestPacket.head.status, [], [], []⟩
  if requestPacket.head.status = kOk then
    match decodePacketToKVRequest requestPacket with
    | none => .inl { response with status := kBadRequest }
    | some request =>
        if request.opcode = kPing then .inl { response with status := kOk }
        else if request.opcode = kPut then .inr (.put request)
        else if request.opcode = kGet then .inr (.get request)
        else if request.opcode = kDel then .inr (.del request)
        else .inl { response with status := kUnsupportedOpcode }
  else .inl response

/-- `ShouldEcho` from the response on; the response packet, or `none` when it
returns `false`. -/
def echoReply (requestPacket : Packet) (response : KVResponse) : Option Packet :=
  match encodeKVResponseToPacket response requestPacket.head.opcode
      requestPacket.head.requestId with
  | some responsePacket => some responsePacket
  | none =>
      encodeKVResponseToPacket ⟨kInternalError, [], [], []⟩ requestPacket.head.opcode
        requestPacket.head.requestId

/-- `ShouldEcho`: the response packet, if it returns `true`, and the store. -/
def shouldEcho (service : KVService) (kvstore : KVStore) (buffer : Buffer)
    (result : Packet) : Option Packet × KVStore :=
  if !service.shouldecho buffer result then (none, kvstore)
  else
    match echoRequest result with
    | .inl response => (echoReply result response, kvstore)
    | .inr call =>
        let (response, kvstore) := call.exec kvstore
        (echoReply result response, kvstore)

end KVService

end Callbacks

end Adachi.Kv
