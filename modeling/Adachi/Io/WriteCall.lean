import Adachi.Io.BufferQueue

/-!
# Calls of `WriteBuffer` in the range of `int`

`WriteBuffer` compares sums of unsigned types with the size of the storage, and then adds the
length of the message to `writeptr_`, which is an `int`.  Nothing compares with the range of
`int`.

## Main results

* `WriteCall.inRange_iff`: a call stays in range exactly when the bytes pending and the bytes
  added are together fewer than `2 ^ 31`.
* `WriteCall.run_spec`: then it appends its bytes.
-/

namespace Adachi.Io

/-- A call of one of the two `WriteBuffer` overloads. -/
inductive WriteCall where
  | string (message : Bytes)
  | block (message : Bytes) (len : Nat)
  deriving DecidableEq

namespace WriteCall

/-- The addition of the cursor and the length, in the type the overload computes it in. -/
def add : WriteCall → Int → Nat → Nat
  | .string _ => addSize
  | .block _ _ => addUnsigned

/-- The bytes it stores. -/
def bytes : WriteCall → Bytes
  | .string message => message
  | .block message len => message.take (toUnsigned len)

def run (b : Buffer) : WriteCall → Buffer
  | .string message => b.writeBuffer message
  | .block message len => b.writeBufferLen message len

/-- The buffer once the call has made room in it. -/
def room (w : WriteCall) (b : Buffer) : Buffer :=
  if w.add b.writeptr w.bytes.length > b.buffer.length then
    if w.add b.movePtr.writeptr w.bytes.length > b.movePtr.buffer.length then
      b.movePtr.resizeTo (w.add b.movePtr.writeptr w.bytes.length)
    else b.movePtr
  else b

/-- No addition of the call leaves its type: the sums that are compared and stored are exact,
and the one that becomes the write cursor is a value of `int`. -/
structure InRange (w : WriteCall) (b : Buffer) : Prop where
  compared : (w.add b.writeptr w.bytes.length : Int) = b.writeptr + w.bytes.length
  stored : (w.add (w.room b).writeptr w.bytes.length : Int) =
    (w.room b).writeptr + w.bytes.length
  ge : -2 ^ 31 ≤ (w.room b).writeptr + w.bytes.length
  lt : (w.room b).writeptr + w.bytes.length < 2 ^ 31

variable {w : WriteCall} {b : Buffer}

theorem run_eq_writeBytes (w : WriteCall) (b : Buffer) :
    w.run b = b.writeBytes w.add w.bytes := by
  cases w with
  | string message => rfl
  | block message len => rfl

theorem run_eq (w : WriteCall) (b : Buffer) :
    w.run b = (w.room b).copyIn w.bytes (toInt (w.add (w.room b).writeptr w.bytes.length)) := by
  cases w with
  | string message => rfl
  | block message len => rfl

theorem intReadptr_run (h : b.IntReadptr) (w : WriteCall) : (w.run b).IntReadptr := by
  rw [run_eq_writeBytes]
  exact Buffer.intReadptr_writeBytes h w.add w.bytes

/-! ## The sums -/

theorem add_of_lt {i : Int} {n : Nat} (h0 : 0 ≤ i) (hi : i < 2 ^ 31) (hn : n < 2 ^ 31) :
    w.add i n = i.toNat + n := by
  cases w with
  | string message => exact addSize_of_lt h0 hi hn
  | block message len => exact addUnsigned_of_lt h0 hi hn

/-- Making room leaves the write cursor, or sets it to the number of unread bytes. -/
theorem room_writeptr (w : WriteCall) (b : Buffer) :
    (w.room b).writeptr =
      if w.add b.writeptr w.bytes.length > b.buffer.length then b.writeptr - b.readptr
      else b.writeptr := by
  unfold room
  rw [← Buffer.movePtr_writeptr]
  split
  · split
    · rfl
    · rfl
  · rfl

theorem room_writeptr_bounds (h : b.Fits) :
    (b.size : Int) ≤ (w.room b).writeptr ∧ (w.room b).writeptr < 2 ^ 31 := by
  have h1 := h.readptr_nonneg
  have h3 := h.writeptr_lt
  have hsize := Buffer.cast_size h.toWF
  rw [room_writeptr]
  split
  · omega
  · omega

/-- The sum of the check before the call makes room is exact. -/
theorem add_writeptr (h : b.Fits) (hlen : w.bytes.length < 2 ^ 31) :
    w.add b.writeptr w.bytes.length = b.writeptr.toNat + w.bytes.length := by
  have h1 := h.readptr_nonneg
  have h2 := h.readptr_le
  exact add_of_lt (by omega) h.writeptr_lt hlen

/-- And so are those behind it. -/
theorem add_room (h : b.Fits) (hlen : w.bytes.length < 2 ^ 31) :
    w.add (w.room b).writeptr w.bytes.length =
      (w.room b).writeptr.toNat + w.bytes.length := by
  obtain ⟨hle, hlt⟩ := room_writeptr_bounds (w := w) h
  exact add_of_lt (by omega) hlt hlen

/-- Where the bytes do not fit in `int`, they do not fit in the storage: room is made, and the
cursor counts the pending bytes only. -/
theorem room_writeptr_of_ge (h : b.Fits) (hlen : w.bytes.length < 2 ^ 31)
    (hlow : 2 ^ 31 ≤ b.size + w.bytes.length) : (w.room b).writeptr = b.size := by
  have h1 := h.readptr_nonneg
  have hcap := h.capacity_lt
  have hsize := Buffer.cast_size h.toWF
  have hadd := add_writeptr h hlen
  have hfull : w.add b.writeptr w.bytes.length > b.buffer.length := by omega
  rw [room_writeptr, if_pos hfull, hsize]

/-- The new cursor is a value of `int` exactly when, with what is pending, the bytes are fewer
than `2 ^ 31`. -/
theorem room_writeptr_add_lt_iff (h : b.Fits) :
    (w.room b).writeptr + w.bytes.length < 2 ^ 31 ↔ b.size + w.bytes.length < 2 ^ 31 := by
  obtain ⟨hle, hlt⟩ := room_writeptr_bounds (w := w) h
  constructor
  · intro hsum
    omega
  · intro hsum
    have hcap := h.capacity_lt
    have hsize := Buffer.cast_size h.toWF
    have hadd := add_writeptr h (w := w) (by omega)
    rw [room_writeptr]
    split
    · omega
    · omega

/-! ## What a call does -/

/-- **A call stays in range** exactly when, with what is pending, the bytes are fewer than
`2 ^ 31`. -/
theorem inRange_iff (h : b.Fits) : w.InRange b ↔ b.size + w.bytes.length < 2 ^ 31 := by
  constructor
  · intro hin
    exact (room_writeptr_add_lt_iff h).1 hin.lt
  · intro hsum
    have h1 := h.readptr_nonneg
    have h2 := h.readptr_le
    obtain ⟨hle, _⟩ := room_writeptr_bounds (w := w) h
    have hcompared := add_writeptr h (w := w) (by omega)
    have hstored := add_room h (w := w) (by omega)
    exact ⟨by omega, by omega, by omega, (room_writeptr_add_lt_iff h).2 hsum⟩

/-- A call in range appends its bytes. -/
theorem run_spec (h : b.Fits) (hroom : b.size + w.bytes.length < 2 ^ 31) :
    (w.run b).Fits ∧ (w.run b).unread = b.unread ++ w.bytes := by
  rw [Buffer.size_eq h.toWF] at hroom
  cases w with
  | string message => exact Buffer.writeBuffer_spec h hroom
  | block message len =>
      have hlen : ∀ bytes : Bytes, bytes.length < 2 ^ 31 →
          b.writeBufferLen bytes bytes.length = Buffer.writeBytes addUnsigned b bytes := by
        intro bytes hbytes
        rw [Buffer.writeBufferLen, toUnsigned_of_lt (by omega), List.take_length]
      have hspec := Buffer.writeBufferLen_spec h hroom
      rwa [hlen _ (by omega)] at hspec

/-- Past the range of `int` the write cursor is negative. -/
theorem writeptr_neg (h : b.Fits) (hlow : 2 ^ 31 ≤ b.size + w.bytes.length)
    (hhigh : b.size + w.bytes.length < 2 ^ 32) (hlen : w.bytes.length < 2 ^ 31) :
    (w.run b).writeptr < 0 := by
  have hroom := room_writeptr_of_ge h hlen hlow
  have hstored := add_room h hlen
  rw [run_eq, Buffer.copyIn_writeptr, toInt_of_ge (by omega) (by omega)]
  omega

end WriteCall

end Adachi.Io
