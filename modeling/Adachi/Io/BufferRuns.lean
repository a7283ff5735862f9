import Adachi.Io.BufferQueue
import Adachi.Lib.Machine

/-!
# Runs of `Buffer` operations

The specification of `Buffer` is a queue of bytes: writing and receiving append, sending
and reading remove from the front, and nothing else changes it (`ByteQueue.step`).  The
buffer simulates it: with the queue as the unread bytes, every operation returns the same
and leaves the cursors in order.

Sizes are kept in the type `int`, so an operation must not ask for `2 ^ 31` bytes of
storage (`Buffer.demand`).

## Main results

* `buffer_is_queue`: every sequence of operations on a new buffer behaves as on an empty
  queue.
-/

namespace Adachi.Io

/-! ## Operations -/

/-- The operations, with what the system calls answer; `readFd (.ok [])` is the end of
file. -/
inductive BufferOp where
  | writeBuffer (message : Bytes)
  | writeBufferLen (message : Bytes) (len : Nat)
  | readFd (r : SysResult Bytes)
  | writeFd (r : SysResult Nat)
  | readBuffer
  | readBufferLen (len : Nat)
  | expand (size : Nat)

/-- What an operation returns: nothing, the result of a system call, the message that was
read, or an exception. -/
inductive BufferReply where
  | done
  | result (r : SysResult Nat)
  | message (message : Bytes)
  | outOfRange

namespace Buffer

def step (b : Buffer) : BufferOp → BufferReply × Buffer
  | .writeBuffer message => (.done, b.writeBuffer message)
  | .writeBufferLen message len => (.done, b.writeBufferLen message len)
  | .readFd r => (.result (b.readFd r).1, (b.readFd r).2)
  | .writeFd r => (.result (b.writeFd r).1, (b.writeFd r).2)
  | .readBuffer => (.message b.readBuffer.1, b.readBuffer.2)
  | .readBufferLen len =>
      match b.readBufferLen len with
      | none => (.outOfRange, b)
      | some (message, b') => (.message message, b')
  | .expand size => (.done, b.expand size)

/-- The storage that an operation needs. -/
def demand (b : Buffer) : BufferOp → Nat
  | .writeBuffer message => b.size + message.length
  | .writeBufferLen _ len => b.size + len
  | .readFd (.ok data) => b.size + data.length
  | .expand size => size
  | _ => 0

/-- What the callers pass and the kernel answers: `len` bytes are there to be written,
`readv` fills at most the free tail and the 64 KiB of `extrabuf`, and `write` accepts at
most the pending bytes. -/
def Possible (b : Buffer) : BufferOp → Prop
  | .writeBufferLen message len => len ≤ message.length
  | .readFd (.ok data) => data.length ≤ b.buffer.length - b.writeptr.toNat + 65536
  | .writeFd (.ok n) => n ≤ b.size
  | _ => True

instance (b : Buffer) : (op : BufferOp) → Decidable (b.Possible op)
  | .writeBufferLen message len => inferInstanceAs (Decidable (len ≤ message.length))
  | .readFd (.ok data) => inferInstanceAs
      (Decidable (data.length ≤ b.buffer.length - b.writeptr.toNat + 65536))
  | .writeFd (.ok n) => inferInstanceAs (Decidable (n ≤ b.size))
  | .writeBuffer _ | .readFd (.error _) | .writeFd (.error _) | .readBuffer
  | .readBufferLen _ | .expand _ => inferInstanceAs (Decidable True)

end Buffer

def buffering : Machine Buffer BufferOp where
  next b op := (b.step op).2
  enabled b op := b.Possible op ∧ b.demand op < 2 ^ 31

instance (b : Buffer) (op : BufferOp) : Decidable (buffering.enabled b op) :=
  inferInstanceAs (Decidable (b.Possible op ∧ b.demand op < 2 ^ 31))

/-! ## The queue -/

/-- What the operations mean for a queue of bytes. -/
def ByteQueue.step (queue : Bytes) : BufferOp → BufferReply × Bytes
  | .writeBuffer message => (.done, queue ++ message)
  | .writeBufferLen message len => (.done, queue ++ message.take len)
  | .readFd (.ok data) => (.result (.ok data.length), queue ++ data)
  | .readFd (.error e) => (.result (.error e), queue)
  | .writeFd (.ok n) => (.result (.ok n), queue.drop n)
  | .writeFd (.error e) => (.result (.error e), queue)
  | .readBuffer => (.message queue, [])
  | .readBufferLen len =>
      if len ≤ queue.length then (.message (queue.take len), queue.drop len)
      else (.outOfRange, queue)
  | .expand _ => (.done, queue)

def queueing : Machine Bytes BufferOp where
  next queue op := (ByteQueue.step queue op).2
  enabled _ _ := True

namespace Buffer

/-! ## One step -/

/-- The buffer stands for the queue. -/
def Holds (b : Buffer) (queue : Bytes) : Prop := b.Fits ∧ b.unread = queue

/-- `WriteBuffer(const char*, unsigned int)` with a longer block behind the pointer. -/
theorem writeBufferLen_take {b : Buffer} (message : Bytes) {len : Nat}
    (hlen : len ≤ message.length) (hint : len < 2 ^ 32) :
    b.writeBufferLen message len =
      b.writeBufferLen (message.take len) (message.take len).length := by
  rw [writeBufferLen, writeBufferLen, List.length_take, Nat.min_eq_left hlen,
    toUnsigned_of_lt hint, List.take_take, Nat.min_self]

theorem readBuffer_spec {b : Buffer} (h : b.WF) :
    b.readBuffer.1 = b.unread ∧ b.readBuffer.2.WF ∧ b.readBuffer.2.unread = [] ∧
      b.readBuffer.2.buffer = b.buffer := by
  refine ⟨?_, ⟨Int.le_refl 0, Int.le_refl 0, ?_, Int.pow_pos (by decide)⟩, ?_, rfl⟩
  · change Memory.slice _ _ b.size = _
    rw [size_eq h, unread_length h]
    rfl
  · exact Int.natCast_nonneg _
  · exact Memory.slice_zero ..

/-- **Step lemma.**  The buffer does to the queue what the operation means. -/
theorem Holds.step {b : Buffer} {queue : Bytes} (h : b.Holds queue) {op : BufferOp}
    (hpossible : b.Possible op) (hdemand : b.demand op < 2 ^ 31) :
    (b.step op).2.Holds (ByteQueue.step queue op).2 ∧
      (b.step op).1 = (ByteQueue.step queue op).1 := by
  rcases h with ⟨hfits, hqueue⟩
  have hwf := hfits.toWF
  have hsize := size_eq hwf
  subst hqueue
  cases op with
  | writeBuffer message =>
      change b.size + message.length < 2 ^ 31 at hdemand
      rw [hsize] at hdemand
      exact ⟨writeBuffer_spec hfits hdemand, rfl⟩
  | writeBufferLen message len =>
      change b.size + len < 2 ^ 31 at hdemand
      change len ≤ message.length at hpossible
      rw [hsize] at hdemand
      have hpending : b.unread.length + (message.take len).length < 2 ^ 31 := by
        rw [List.length_take]
        omega
      have hspec := writeBufferLen_spec hfits hpending
      rw [← writeBufferLen_take message hpossible (by omega)] at hspec
      exact ⟨hspec, rfl⟩
  | readFd r =>
      cases r with
      | error e => exact ⟨⟨hfits, rfl⟩, rfl⟩
      | ok data =>
          change b.size + data.length < 2 ^ 31 at hdemand
          rw [hsize] at hdemand
          rcases readFd_spec hfits hdemand with ⟨hresult, hspec⟩
          exact ⟨hspec, congrArg BufferReply.result hresult⟩
  | writeFd r =>
      cases r with
      | error e => exact ⟨⟨hfits, rfl⟩, rfl⟩
      | ok n =>
          change n ≤ b.size at hpossible
          rw [hsize] at hpossible
          rcases writeFd_spec hwf hpossible with ⟨hresult, hwf', hunread, hbuffer⟩
          refine ⟨⟨⟨hwf', ?_⟩, hunread⟩, congrArg BufferReply.result hresult⟩
          change (b.writeFd (.ok n)).2.buffer.length < 2 ^ 31
          rw [hbuffer]
          exact hfits.capacity_lt
  | readBuffer =>
      rcases readBuffer_spec hwf with ⟨hmessage, hwf', hunread, hbuffer⟩
      exact ⟨⟨⟨hwf', hfits.capacity_lt⟩, hunread⟩, congrArg BufferReply.message hmessage⟩
  | readBufferLen len =>
      unfold Buffer.step ByteQueue.step
      dsimp only
      by_cases hle : len ≤ b.unread.length
      · rcases readBufferLen_spec hwf hle with ⟨b', hsome, hwf', hunread, hbuffer⟩
        rw [hsome, if_pos hle]
        refine ⟨⟨⟨hwf', ?_⟩, hunread⟩, rfl⟩
        rw [hbuffer]
        exact hfits.capacity_lt
      · rw [(readBufferLen_eq_none_iff hwf len).2 (Nat.lt_of_not_le hle), if_neg hle]
        exact ⟨⟨hfits, rfl⟩, rfl⟩
  | expand n =>
      change n < 2 ^ 31 at hdemand
      rcases expand_spec hwf n with ⟨hwf', hunread, _, hlength⟩
      refine ⟨⟨⟨hwf', ?_⟩, hunread⟩, rfl⟩
      change (b.expand n).buffer.length < 2 ^ 31
      rw [hlength]
      exact Nat.max_lt.2 ⟨hfits.capacity_lt, hdemand⟩

/-! ## Runs -/

/-- **`Buffer` is a byte queue.**  After every sequence of operations on a new buffer that
never asks for `2 ^ 31` bytes of storage, the cursors are in order within the storage, the
bytes between them are those of the queue after the same operations, and every operation
has returned what it returns on the queue. -/
theorem buffer_is_queue (size : Nat) (hsize : size < 2 ^ 31) (ops : List BufferOp)
    (hlegal : buffering.Legal (new size) ops) :
    let b := buffering.run (new size) ops
    (0 ≤ b.readptr ∧ b.readptr ≤ b.writeptr ∧ b.writeptr ≤ b.buffer.length) ∧
    b.buffer.length < 2 ^ 31 ∧
    b.unread = queueing.run [] ops ∧
    buffering.collect (fun b op => [(b.step op).1]) (new size) ops =
      queueing.collect (fun queue op => [(ByteQueue.step queue op).1]) [] ops := by
  intro b
  have hsim := buffering.run_simulates (N := queueing) (p := Holds)
    (f := fun b op => [(b.step op).1])
    (g := fun queue op => [(ByteQueue.step queue op).1]) ⟨new_fits hsize, unread_new size⟩
    (fun b queue op h hl => ?_) ops hlegal
  · rcases hsim with ⟨⟨hfits, hunread⟩, hreplies⟩
    exact ⟨⟨hfits.readptr_nonneg, hfits.readptr_le, hfits.writeptr_le⟩, hfits.capacity_lt,
      hunread, hreplies⟩
  · rcases h.step hl.1 hl.2 with ⟨hholds, hreply⟩
    exact ⟨hholds, congrArg (fun reply => [reply]) hreply⟩

/-- A small buffer grows to take what `readv` has put in the side array; a read of more
than there is throws. -/
theorem buffer_is_queue_overflow :
    let ops : List BufferOp :=
      [.writeBuffer [1, 2, 3], .readFd (.ok [4, 5, 6]), .writeFd (.ok 2), .readBufferLen 9,
        .writeBufferLen [7, 8, 9] 2, .readBufferLen 1, .expand 16, .readFd (.error .eagain)]
    (buffering.run (new 4) ops).unread = [4, 5, 6, 7, 8] := by
  intro ops
  have hqueue := buffer_is_queue 4 (by decide) ops (by decide)
  exact hqueue.2.2.1.trans (by decide)

end Buffer

end Adachi.Io
