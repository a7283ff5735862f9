import Adachi.Io.Buffer

/-!
# KV protocol data

The records of `include/kv/packet.h`, `kvrequest.h` and `kvresponse.h` and the
constants of `include/kv/protocolcodec.h`.
-/

namespace Adachi.Kv

open Adachi.Io

structure PacketHead where
  magic : UInt32
  version : UInt16
  msgType : UInt16
  opcode : UInt16
  status : UInt16
  bodyLength : UInt32
  requestId : UInt64
  deriving DecidableEq, Repr

structure Packet where
  head : PacketHead
  body : Bytes
  deriving DecidableEq, Repr

structure KVRequest where
  opcode : UInt16
  key : Bytes
  value : Bytes
  extrainfo : Bytes
  deriving DecidableEq, Repr

structure KVResponse where
  status : UInt16
  key : Bytes
  value : Bytes
  extrainfo : Bytes
  deriving DecidableEq, Repr

/-- `sizeof(PacketHead)`, which the source asserts to be 24. -/
def sizeofPacketHead : Nat := 24

/-! ## Constants -/

def kDefaultMagic : UInt32 := 0x06161027
def kDefaultVersion : UInt16 := 1
def kRequest : UInt16 := 1
def kResponse : UInt16 := 2

def kPing : UInt16 := 1
def kPut : UInt16 := 2
def kGet : UInt16 := 3
def kDel : UInt16 := 4

def kOk : UInt16 := 0
def kNotFound : UInt16 := 1
def kBadRequest : UInt16 := 2
def kInternalError : UInt16 := 3
def kUnsupportedOpcode : UInt16 := 4

def kMaxKeyLength : UInt32 := 256
def kMaxValueLength : UInt32 := 1024 * 1024
def kMaxBodyLength : UInt32 := 2 * 1024 * 1024

@[simp] theorem kMaxKeyLength_toNat : kMaxKeyLength.toNat = 256 := rfl
@[simp] theorem kMaxValueLength_toNat : kMaxValueLength.toNat = 2 ^ 20 := rfl
@[simp] theorem kMaxBodyLength_toNat : kMaxBodyLength.toNat = 2 ^ 21 := rfl

/-- The opcodes are told apart in every order the code compares them. -/
theorem opcodes_ne :
    kPut ≠ kPing ∧ kGet ≠ kPing ∧ kDel ≠ kPing ∧ kGet ≠ kPut ∧ kDel ≠ kPut ∧
      kDel ≠ kGet ∧ kPing ≠ kPut ∧ kPing ≠ kGet ∧ kPut ≠ kGet := by
  decide

end Adachi.Kv
