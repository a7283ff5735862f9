import Adachi.Io.BufferRuns

/-!
# How much storage a `Buffer` takes

`Capacity()` is the size of the storage, which never shrinks (`src/buffer.cpp`).  It grows only
when a content does not fit, and then to that content: the storage is the high-water mark of what
the buffer has had to hold.

## Main results

* `capacity_high_water`: after every run the capacity is the largest size asked for, computed
  from the history of the queue alone.
-/

namespace Adachi.Io

/-- The content, or the storage, that an operation asks a queue for. -/
def ByteQueue.demand (queue : Bytes) : BufferOp → Nat
  | .writeBuffer message => queue.length + message.length
  | .writeBufferLen _ len => queue.length + len
  | .readFd (.ok data) => queue.length + data.length
  | .expand size => size
  | _ => 0

namespace Buffer

open Memory

/-- `Capacity()` -/
def capacity (b : Buffer) : Nat := b.buffer.length

variable {b : Buffer}

@[simp] theorem capacity_new (size : Nat) : (new size).capacity = size := resize_length ..

@[simp] theorem capacity_resizeTo (b : Buffer) (n : Nat) : (b.resizeTo n).capacity = n :=
  resize_length ..

/-! ## One operation -/

theorem Holds.demand_eq {queue : Bytes} (h : b.Holds queue) (op : BufferOp) :
    b.demand op = ByteQueue.demand queue op := by
  obtain ⟨hfits, rfl⟩ := h
  unfold Buffer.demand
  rw [size_eq hfits.toWF]
  rfl

theorem unread_length_le_capacity (h : b.WF) : b.unread.length ≤ b.capacity := by
  have h1 := h.readptr_nonneg
  have h3 := h.writeptr_le
  rw [unread_length h, capacity]
  omega

theorem capacity_copyIn {data : Bytes} (hroom : b.writeptr.toNat + data.length ≤ b.capacity)
    (w : Int) : (b.copyIn data w).capacity = b.capacity := memmove_length hroom

/-- Storing behind the content of a compacted buffer, with the storage grown to fit. -/
theorem capacity_append {m : Buffer} (h : m.WF) (hzero : m.readptr = 0) (data : Bytes)
    {wanted : Nat} (hwanted : wanted = m.unread.length + data.length) (w : Int) :
    ((if wanted > m.capacity then m.resizeTo wanted else m).copyIn data w).capacity =
      max m.capacity wanted := by
  have h2 := h.readptr_le
  have hlength := unread_length h
  split
  · rw [capacity_copyIn, capacity_resizeTo]
    · omega
    · rw [capacity_resizeTo, resizeTo_writeptr]
      omega
  · rw [capacity_copyIn]
    · omega
    · omega

theorem movePtr_of_zero {m : Buffer} (hzero : m.readptr = 0) : m.movePtr = m :=
  if_neg (not_not.2 hzero)

/-- What `ReadFd` does with the side array, once the free tail is full and the content is at the
front. -/
theorem capacity_extrabuf {m : Buffer} (h : m.WF) (hzero : m.readptr = 0) (extrabuf : Bytes)
    {need : Nat} (hneed : extrabuf.length = need) (hroom : m.unread.length + need < 2 ^ 31)
    (w : Int) :
    ((if addSize m.writeptr need > m.buffer.length then
        m.expand (toUnsigned (addSize m.writeptr need)) else m).copyIn extrabuf w).capacity =
      max m.capacity (m.unread.length + need) := by
  subst hneed
  have hlength := unread_length h
  have h2 := h.readptr_le
  have hwanted : addSize m.writeptr extrabuf.length = m.unread.length + extrabuf.length := by
    rw [addSize_of_lt (by omega) h.writeptr_lt (by omega)]
    omega
  have hexpand : (if addSize m.writeptr extrabuf.length > m.buffer.length then
        m.expand (toUnsigned (addSize m.writeptr extrabuf.length)) else m) =
      if addSize m.writeptr extrabuf.length > m.capacity then
        m.resizeTo (addSize m.writeptr extrabuf.length) else m := by
    refine if_ctx_congr Iff.rfl (fun hgrow => ?_) fun _ => rfl
    rw [toUnsigned_of_lt (by omega)]
    unfold expand
    rw [movePtr_of_zero hzero]
    exact if_pos hgrow
  rw [hexpand, capacity_append h hzero extrabuf hwanted, hwanted]

theorem capacity_writeBytes {add : Int → Nat → Nat}
    (hadd : ∀ (i : Int) (n : Nat), 0 ≤ i → i < 2 ^ 31 → n < 2 ^ 31 → add i n = i.toNat + n)
    (h : b.Fits) {message : Bytes} (hpending : b.unread.length + message.length < 2 ^ 31) :
    (writeBytes add b message).capacity = max b.capacity (b.unread.length + message.length) := by
  obtain ⟨hwf, hcap⟩ := h
  have h1 := hwf.readptr_nonneg
  have h2 := hwf.readptr_le
  have hlength := unread_length hwf
  have hsum := hadd b.writeptr message.length (by omega) hwf.writeptr_lt (by omega)
  unfold writeBytes
  dsimp only
  by_cases hfull : add b.writeptr message.length > b.buffer.length
  · rw [if_pos hfull]
    obtain ⟨mwf, munread, mzero, mlen⟩ := movePtr_spec hwf
    have m2 := mwf.readptr_le
    have mlength := unread_length mwf
    have msum := hadd b.movePtr.writeptr message.length (by omega) mwf.writeptr_lt (by omega)
    rw [munread] at mlength
    have hwanted : add b.movePtr.writeptr message.length =
        b.movePtr.unread.length + message.length := by
      rw [munread]
      omega
    refine (capacity_append mwf mzero message hwanted _).trans ?_
    rw [hwanted, munread]
    exact congrArg (max · _) mlen
  · rw [if_neg hfull, capacity_copyIn]
    · change b.buffer.length = max b.buffer.length _
      omega
    · change _ ≤ b.buffer.length
      omega

/-- `ReadFd` grows the storage to take what `readv` has put in the side array. -/
theorem capacity_readFd (h : b.Fits) {data : Bytes}
    (hroom : b.unread.length + data.length < 2 ^ 31) :
    (b.readFd (.ok data)).2.capacity = max b.capacity (b.unread.length + data.length) := by
  obtain ⟨hwf, hcap⟩ := h
  have h1 := hwf.readptr_nonneg
  have h2 := hwf.readptr_le
  have h3 := hwf.writeptr_le
  have h4 := hwf.writeptr_lt
  have hlength := unread_length hwf
  have hiov : (b.buffer.length + (2 ^ 64 - toSize b.writeptr)) % 2 ^ 64 =
      b.buffer.length - b.writeptr.toNat := by
    rw [toSize_of_nonneg (by omega) (by omega)]
    omega
  cases hdata : data with
  | nil =>
      have hle := unread_length_le_capacity hwf
      show b.capacity = max b.capacity (b.unread.length + 0)
      omega
  | cons x xs =>
      simp only [readFd, ← hdata]
      rw [hiov]
      generalize hiovLen : b.buffer.length - b.writeptr.toNat = iovLen
      by_cases hfull : data.length ≥ iovLen
      · rw [if_pos hfull]
        have htake : (data.take iovLen).length = iovLen := by
          rw [List.length_take]
          omega
        obtain ⟨swf, sunread, slen⟩ := copyIn_spec hwf (data.take iovLen)
          (w := toInt b.buffer.length) (by omega) (by omega)
          (by rw [toInt_of_lt (by omega) (by omega)]; omega)
        obtain ⟨mwf, munread, mzero, mlen⟩ := movePtr_spec swf
        generalize (b.copyIn (data.take iovLen) (toInt b.buffer.length)).movePtr = m at *
        have hcapacity : m.capacity = b.capacity := mlen.trans slen
        have hunread : m.unread.length = b.unread.length + iovLen := by
          rw [munread, sunread, List.length_append, htake]
        have hside := capacity_extrabuf mwf mzero (data.drop iovLen) List.length_drop (by omega)
        have hsum : b.unread.length + iovLen + (data.length - iovLen) =
            b.unread.length + data.length := by omega
        refine (hside _).trans ?_
        rw [hcapacity, hunread, hsum]
      · rw [if_neg hfull]
        show (b.copyIn data _).capacity = _
        rw [capacity_copyIn]
        · change b.buffer.length = max b.buffer.length _
          omega
        · change _ ≤ b.buffer.length
          omega

@[simp] theorem capacity_writeFd (b : Buffer) (r : SysResult Nat) :
    (b.writeFd r).2.capacity = b.capacity := by
  cases r with
  | error e => rfl
  | ok n =>
      show (ite _ _ _ : Buffer).capacity = b.capacity
      split
      · rfl
      · rfl

theorem capacity_readBufferLen {len : Nat} {message : Bytes} {b' : Buffer}
    (h : b.readBufferLen len = some (message, b')) : b'.capacity = b.capacity := by
  unfold readBufferLen at h
  dsimp only at h
  split at h
  · cases h
  · split at h
    · cases h
      rfl
    · cases h
      rfl

/-- **Step lemma.**  An operation grows the storage to what it asks for, and no further. -/
theorem capacity_step (h : b.Fits) {op : BufferOp} (hpossible : b.Possible op)
    (hdemand : b.demand op < 2 ^ 31) :
    (b.step op).2.capacity = max b.capacity (b.demand op) := by
  have hsize := size_eq h.toWF
  have hle := unread_length_le_capacity h.toWF
  have hzero : max b.capacity 0 = b.capacity := Nat.max_zero ..
  cases op with
  | writeBuffer message =>
      change b.size + message.length < 2 ^ 31 at hdemand
      change (writeBytes addSize b message).capacity = max b.capacity (b.size + message.length)
      rw [hsize] at hdemand ⊢
      exact capacity_writeBytes (fun _ _ => addSize_of_lt) h hdemand
  | writeBufferLen message len =>
      change b.size + len < 2 ^ 31 at hdemand
      change len ≤ message.length at hpossible
      have hlength : (message.take len).length = len := by
        rw [List.length_take]
        omega
      change (writeBytes addUnsigned b (message.take (toUnsigned len))).capacity =
        max b.capacity (b.size + len)
      rw [hsize] at hdemand ⊢
      rw [toUnsigned_of_lt (by omega),
        capacity_writeBytes (fun _ _ => addUnsigned_of_lt) h (by omega), hlength]
  | readFd r =>
      cases r with
      | error e => exact hzero.symm
      | ok data =>
          change b.size + data.length < 2 ^ 31 at hdemand
          change (b.readFd (.ok data)).2.capacity = max b.capacity (b.size + data.length)
          rw [hsize] at hdemand ⊢
          exact capacity_readFd h hdemand
  | writeFd r => exact (capacity_writeFd b r).trans hzero.symm
  | readBuffer => exact hzero.symm
  | readBufferLen len =>
      refine Eq.trans ?_ hzero.symm
      unfold Buffer.step
      dsimp only
      split
      · rfl
      · rename_i hsome
        exact capacity_readBufferLen hsome
  | expand n => exact (expand_spec h.toWF n).2.2.2

/-! ## Runs -/

/-- **The capacity is the high-water mark.**  After every sequence of operations on a new buffer
the storage is as large as the largest content, or argument of `Expand`, that the queue has been
asked for on the way, or as it was made. -/
theorem capacity_high_water (size : Nat) (hsize : size < 2 ^ 31) (ops : List BufferOp)
    (hlegal : buffering.Legal (new size) ops) :
    (buffering.run (new size) ops).capacity =
      (queueing.collect (fun queue op => [ByteQueue.demand queue op]) [] ops).foldl max size := by
  have hrun := buffering.run_invariant_history
    (I := fun ops b => b.Holds (queueing.run [] ops) ∧ b.capacity =
      (queueing.collect (fun queue op => [ByteQueue.demand queue op]) [] ops).foldl max size)
    ⟨⟨new_fits hsize, unread_new size⟩, capacity_new size⟩ (fun ops op hlegal h => ?_) ops hlegal
  · exact hrun.2
  · obtain ⟨hholds, hcapacity⟩ := h
    obtain ⟨hpossible, hdemand⟩ := Machine.Legal.enabled_at _ hlegal
    have hstep := capacity_step hholds.1 hpossible hdemand
    rw [hcapacity, hholds.demand_eq] at hstep
    rw [Machine.collect_concat, List.foldl_append, Machine.run_concat]
    exact ⟨(hholds.step hpossible hdemand).1, hstep⟩

/-- The largest content is the one of six bytes, after the read. -/
theorem capacity_high_water_six :
    let ops : List BufferOp :=
      [.writeBuffer [1, 2, 3], .readFd (.ok [4, 5, 6]), .readBufferLen 5, .writeBuffer [7, 8]]
    (buffering.run (new 4) ops).capacity = 6 := by
  intro ops
  exact capacity_high_water 4 (by decide) ops (by decide)

end Buffer

end Adachi.Io
