import Adachi.Lib.ByteOrder
import Adachi.Lib.Memory
import Mathlib.Algebra.Group.Int.Defs
import Mathlib.Algebra.Group.Nat.Defs

/-!
# `adachi::io::Buffer`

The byte buffer of a connection (`include/buffer.h`, `src/buffer.cpp`): a
`std::vector<char>` with two `int` cursors.  The bytes between the cursors
have been written and not yet read.

The cursors are declared `int` while sizes are `size_t` and one parameter is
`unsigned int`, so each function below converts where the C++ expression does:
`toSize` (`int` to `size_t`), `toInt` (to `int`, modulo `2 ^ 32` as the
compilers in use define it) and `toUnsigned`.  Under `Buffer.WF` and a bound
on the size none of these changes a value; that is proved in
`Adachi.Io.BufferQueue`.

A system call that the class makes is a parameter: what `readv` stored or what
`write` accepted, or the `errno`.
-/

namespace Adachi.Io

open Memory ByteOrder

/-- `std::string`, `std::vector<char>` -/
abbrev Bytes := List UInt8

/-- A string literal -/
def ascii (text : String) : Bytes := text.toList.map fun ch => UInt8.ofNat ch.toNat

/-! ## System calls -/

/-- The `errno` values the code tells apart. -/
inductive Errno where
  | eagain
  | ewouldblock
  | eintr
  | other (code : Nat)
  deriving DecidableEq, Repr

/-- The three values after which the code simply tries again later. -/
def Errno.retryable : Errno → Bool
  | .eagain => true
  | .ewouldblock => true
  | .eintr => true
  | .other _ => false

/-- The return value of a system call, or `-1` with its `errno`. -/
abbrev SysResult (α : Type) := Except Errno α

/-- Linux transfers at most this many bytes in one `read` or `write` call, so
that the `int` a result is kept in always holds it. -/
def maxRwCount : Nat := 0x7ffff000

/-- What `write(fd, p, offered)` can return. -/
def WriteResult.Possible (offered : Nat) : SysResult Nat → Prop
  | .ok n => n ≤ offered ∧ n ≤ maxRwCount
  | .error _ => True

instance (offered : Nat) (r : SysResult Nat) :
    Decidable (WriteResult.Possible offered r) := by
  unfold WriteResult.Possible
  split <;> infer_instance

/-! ## Conversions between the integer types -/

/-- `int` to `size_t` -/
def toSize (i : Int) : Nat := (i % 2 ^ 64).toNat

/-- conversion to `int` -/
def toInt (i : Int) : Int := Int.bmod i (2 ^ 32)

/-- `size_t` to `unsigned int` -/
def toUnsigned (n : Nat) : Nat := n % 2 ^ 32

/-- `int + size_t`, which is computed in `size_t` -/
def addSize (i : Int) (n : Nat) : Nat := (toSize i + n) % 2 ^ 64

/-- `int + unsigned int`, which is computed in `unsigned int` -/
def addUnsigned (i : Int) (n : Nat) : Nat := ((i + n) % 2 ^ 32).toNat

/-! ## The class -/

structure Buffer where
  buffer : Bytes
  readptr : Int
  writeptr : Int
  deriving DecidableEq, Repr

namespace Buffer

/-- `buffer_.resize(n)` -/
def resizeTo (b : Buffer) (n : Nat) : Buffer :=
  { b with buffer := resize 0 b.buffer n }

/-- Store `data` at the write cursor, then set the cursor to `writeptr`. -/
def copyIn (b : Buffer) (data : Bytes) (writeptr : Int) : Buffer :=
  { b with buffer := memmove b.buffer b.writeptr.toNat data, writeptr := writeptr }

@[simp] theorem resizeTo_readptr (b : Buffer) (n : Nat) :
    (b.resizeTo n).readptr = b.readptr := rfl

@[simp] theorem resizeTo_writeptr (b : Buffer) (n : Nat) :
    (b.resizeTo n).writeptr = b.writeptr := rfl

@[simp] theorem copyIn_readptr (b : Buffer) (data : Bytes) (w : Int) :
    (b.copyIn data w).readptr = b.readptr := rfl

@[simp] theorem copyIn_writeptr (b : Buffer) (data : Bytes) (w : Int) :
    (b.copyIn data w).writeptr = w := rfl

/-- `Buffer(int size)` -/
def new (size : Nat) : Buffer := resizeTo ⟨[], 0, 0⟩ size

def empty (b : Buffer) : Bool := b.readptr == b.writeptr

def size (b : Buffer) : Nat := toSize (b.writeptr - b.readptr)

/-- `PeekUnsignedInt()`; `none` when it throws. -/
def peekUnsignedInt [Host] (b : Buffer) : Option UInt32 :=
  if b.size < WireInt.size UInt32 then none
  else some (hostLoad (slice b.buffer b.readptr.toNat (WireInt.size UInt32)))

/-- The storage from the read cursor on: the block `CReadData()` points to. -/
def cReadData (b : Buffer) : Bytes := b.buffer.drop b.readptr.toNat

def movePtr (b : Buffer) : Buffer :=
  if b.readptr ≠ 0 then
    { buffer := memmove b.buffer 0
        (slice b.buffer b.readptr.toNat (b.writeptr - b.readptr).toNat)
      readptr := 0
      writeptr := b.writeptr - b.readptr }
  else b

/-- `Expand(unsigned int size)` -/
def expand (b : Buffer) (size : Nat) : Buffer :=
  let b := b.movePtr
  if size > b.buffer.length then b.resizeTo size else b

/-- The common body of the two `WriteBuffer` overloads; `add` is the addition
of the cursor and the length, in the type the overload computes it in. -/
def writeBytes (add : Int → Nat → Nat) (b : Buffer) (message : Bytes) : Buffer :=
  let b :=
    if add b.writeptr message.length > b.buffer.length then
      let b := b.movePtr
      if add b.writeptr message.length > b.buffer.length then
        b.resizeTo (add b.writeptr message.length)
      else b
    else b
  b.copyIn message (toInt (add b.writeptr message.length))

/-- `WriteBuffer(const std::string& message)` -/
def writeBuffer (b : Buffer) (message : Bytes) : Buffer :=
  writeBytes addSize b message

/-- `WriteBuffer(const char* message, unsigned int len)` -/
def writeBufferLen (b : Buffer) (message : Bytes) (len : Nat) : Buffer :=
  writeBytes addUnsigned b (message.take (toUnsigned len))

/-- `ReadBuffer(std::string& message)` -/
def readBuffer (b : Buffer) : Bytes × Buffer :=
  (slice b.buffer b.readptr.toNat b.size, { b with readptr := 0, writeptr := 0 })

/-- `ReadBuffer(std::string& message, size_t len)`; `none` when it throws. -/
def readBufferLen (b : Buffer) (len : Nat) : Option (Bytes × Buffer) :=
  if b.size < len then none
  else
    let message := slice b.buffer b.readptr.toNat len
    if b.size = len then some (message, { b with readptr := 0, writeptr := 0 })
    else some (message, { b with readptr := toInt (b.readptr + len) })

/-- `ReadFd(int fd, int& saveerrno)`.  `readv` fills the free tail first and
the 64 KiB side array with the rest; an empty result is the end of file. -/
def readFd (b : Buffer) : SysResult Bytes → SysResult Nat × Buffer
  | .error e => (.error e, b)
  | .ok [] => (.ok 0, b)
  | .ok data =>
      let iovLen := (b.buffer.length + (2 ^ 64 - toSize b.writeptr)) % 2 ^ 64
      if data.length ≥ iovLen then
        let b := (b.copyIn (data.take iovLen) (toInt b.buffer.length)).movePtr
        let need := data.length - iovLen
        let b :=
          if addSize b.writeptr need > b.buffer.length then
            b.expand (toUnsigned (addSize b.writeptr need))
          else b
        (.ok data.length,
          b.copyIn (data.drop iovLen) (toInt (addSize b.writeptr need)))
      else (.ok data.length, b.copyIn data (toInt (b.writeptr + data.length)))

/-- `WriteFd(int fd, int& saveerrno)` -/
def writeFd (b : Buffer) : SysResult Nat → SysResult Nat × Buffer
  | .error e => (.error e, b)
  | .ok n =>
      let b := { b with readptr := toInt (b.readptr + n) }
      (.ok n, if b.readptr = b.writeptr then { b with readptr := 0, writeptr := 0 } else b)

end Buffer

end Adachi.Io
