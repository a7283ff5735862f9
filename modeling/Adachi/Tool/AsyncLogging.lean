import Adachi.Io.Buffer
import Adachi.Lib.Machine
import Mathlib.Logic.Function.Basic

/-!
# `adachi::tool::AsyncLogging`

The log (`include/logger.h`, `src/logger.cpp`): threads append records to the current
buffer, full buffers go to `work_list_`, and the backend thread takes that list, writes it
to the file and gives two of the buffers back.  A step is one critical section of
`mtx_`, one `fwrite`, or what a thread does on its own between two of them.

The backend thread waits for at most a second for `wake_requested_`, so it can go on at any
time, and the flag decides nothing here.  `fopen` and `fwrite` succeed; `file` is what has
been handed to `fwrite`.

A copy through a null pointer or past the end of a buffer is undefined.  Here it sets
`fault` and does nothing else.
-/

namespace Adachi.Tool

open Adachi.Io

/-! ## Sizes -/

def kLoggerbuffersize : Nat := 4096

/-- The size of each buffer. -/
def kBackendbuffersize : Nat := kLoggerbuffersize * 1024

/-- At most so many buffers wait for the backend thread. -/
def kBackendbufferlimit : Nat := 25

/-- `unsigned int - unsigned int` -/
def subUnsigned (m n : Nat) : Nat := (m + (2 ^ 32 - n)) % 2 ^ 32

theorem subUnsigned_of_le {m n : Nat} (hle : n ≤ m) (hm : m < 2 ^ 32) :
    subUnsigned m n = m - n := by
  unfold subUnsigned
  rw [show m + (2 ^ 32 - n) = m - n + 2 ^ 32 by omega, Nat.add_mod_right,
    Nat.mod_eq_of_lt (by omega)]

/-! ## `Logger` -/

/-- A record under construction: the first `used_` bytes of `buf_`. -/
structure Logger where
  buf : Bytes
  fits : buf.length ≤ kLoggerbuffersize

namespace Logger

def lessSize (l : Logger) : Nat := kLoggerbuffersize - l.buf.length

/-- `operator<<(std::string_view msg)` -/
def write (l : Logger) (msg : Bytes) : Logger where
  buf := l.buf ++ msg.take l.lessSize
  fits := by
    have hfits := l.fits
    rw [List.length_append, List.length_take, lessSize]
    omega

/-- `Format(value)`, where `std::to_chars` would write `digits`. -/
def format (l : Logger) (digits : Bytes) : Logger where
  buf := if digits.length ≤ l.lessSize then l.buf ++ digits else l.buf
  fits := by
    have hfits := l.fits
    split
    · rename_i hle
      unfold lessSize at hle
      rw [List.length_append]
      omega
    · exact hfits

/-- What `~Logger` passes to `Append`. -/
def record (l : Logger) : Bytes := if 0 < l.lessSize then l.buf ++ [0x0a] else l.buf

theorem record_length (l : Logger) : l.record.length ≤ kLoggerbuffersize := by
  have hfits := l.fits
  unfold record
  split
  · rename_i hless
    unfold lessSize at hless
    rw [List.length_append, List.length_singleton]
    omega
  · exact hfits

end Logger

/-! ## Buffers -/

/-- The cells of a `char[kBackendbuffersize]`. -/
abbrev Block := Nat → UInt8

namespace Block

/-- `memcpy(block + off, src, |src|)` -/
def memcpy (block : Block) (off : Nat) (src : Bytes) : Block :=
  fun n => if n < off then block n else (src[n - off]?).getD (block n)

/-- The first `len` cells. -/
def read (block : Block) (len : Nat) : Bytes := (List.range len).map block

/-- A copy behind the first `off` cells makes them longer. -/
theorem read_memcpy (block : Block) (off : Nat) (src : Bytes) :
    (block.memcpy off src).read (off + src.length) = block.read off ++ src := by
  unfold read
  rw [List.range_add, List.map_append, List.map_map]
  congr 1
  · apply List.map_congr_left
    intro n hn
    exact if_pos (List.mem_range.1 hn)
  · apply List.ext_getElem
    · rw [List.length_map, List.length_range]
    · intro n hn hsrc
      rw [List.getElem_map, List.getElem_range]
      change (if off + n < off then _ else (src[off + n - off]?).getD _) = _
      rw [if_neg (by omega), Nat.add_sub_cancel_left, List.getElem?_eq_getElem hsrc]
      rfl

end Block

structure PendingBuffer where
  data : Option Block
  len : Nat

namespace PendingBuffer

/-- What `fwrite` writes. -/
def content (p : PendingBuffer) : Bytes :=
  match p.data with
  | none => []
  | some block => block.read p.len

/-- The pointer is not null, and the bytes are in the buffer. -/
def Ok (p : PendingBuffer) : Prop := p.data ≠ none ∧ p.len ≤ kBackendbuffersize

end PendingBuffer

/-! ## States -/

/-- Where a thread that logs is: outside `Append`, or between its first check of
`running_` and its critical section. -/
inductive Caller where
  | outside
  | inside (record : Bytes)
  deriving DecidableEq, Repr

def Caller.isInside : Caller → Bool
  | .outside => false
  | .inside _ => true

/-- Where the backend thread is: not started, before its next collection, writing what it
has collected, or out of its loop. -/
inductive Backend where
  | notStarted
  | waiting
  | writing
  | ended
  deriving DecidableEq, Repr

def Backend.isRunning : Backend → Bool
  | .waiting => true
  | .writing => true
  | _ => false

/-- Where `~AsyncLogging` is: not called, at the join of the backend thread, behind it,
writing what was left, or through. -/
inductive Destructor where
  | no
  | joining
  | joined
  | flushing
  | finished
  deriving DecidableEq, Repr

/-- The backend thread has been joined. -/
def Destructor.hasJoined : Destructor → Bool
  | .no => false
  | .joining => false
  | _ => true

/-- The destructor has taken what was left. -/
def Destructor.hasTaken : Destructor → Bool
  | .flushing => true
  | .finished => true
  | _ => false

/-- `tempWorkList` is the part of the backend thread's list still to be written and
`written` the rest of it; `remaining` is what the destructor has still to write.
`appending` is the thread's `g_async_logging_appending`.  `accepted` and `dropped` are
the records copied, in the order of the lock, and those not copied. -/
structure AsyncLogging (τ : Type) where
  running : Bool
  currentBuffer : Option Block
  currentBufferLen : Nat
  nextBuffer : Option Block
  workList : List PendingBuffer
  emptyBuffers : List Block
  file : Bytes
  backend : Backend
  tempWorkList : List PendingBuffer
  written : List PendingBuffer
  destructor : Destructor
  remaining : List PendingBuffer
  callers : τ → Caller
  appending : τ → Bool
  accepted : List Bytes
  dropped : List Bytes
  fault : Bool

inductive LogStep (τ : Type) where
  | call (t : τ) (record : Bytes)
  | append (t : τ)
  | startBackend
  | collect
  | write
  | recycle
  | stop
  | join
  | take
  | flush
  deriving DecidableEq

def LogStep.isAppend {τ : Type} : LogStep τ → Bool
  | .call _ _ => true
  | .append _ => true
  | _ => false

namespace AsyncLogging

variable {τ : Type} [DecidableEq τ]

/-- `AsyncLogging(logpath)` -/
def new : AsyncLogging τ where
  running := true
  currentBuffer := some fun _ => 0
  currentBufferLen := 0
  nextBuffer := some fun _ => 0
  workList := []
  emptyBuffers := []
  file := []
  backend := .notStarted
  tempWorkList := []
  written := []
  destructor := .no
  remaining := []
  callers := fun _ => .outside
  appending := fun _ => false
  accepted := []
  dropped := []
  fault := false

/-! ## Buffers in circulation -/

/-- `TakeBufferLocked` -/
def takeBufferLocked (s : AsyncLogging τ) : Block × AsyncLogging τ :=
  match s.emptyBuffers.getLast? with
  | some block => (block, { s with emptyBuffers := s.emptyBuffers.dropLast })
  | none => (fun _ => 0, s)

/-- `RecycleBufferLocked` -/
def recycleBufferLocked (s : AsyncLogging τ) (buffer : Block) : AsyncLogging τ :=
  if s.emptyBuffers.length < 2 then { s with emptyBuffers := s.emptyBuffers ++ [buffer] }
  else s

/-- The next buffer, or one from `TakeBufferLocked`, becomes the current one. -/
def refill (s : AsyncLogging τ) : AsyncLogging τ :=
  match s.nextBuffer with
  | some block => { s with currentBuffer := some block, nextBuffer := none }
  | none => { s.takeBufferLocked.2 with currentBuffer := some s.takeBufferLocked.1 }

/-- Make sure that there is a next buffer. -/
def fillNext (s : AsyncLogging τ) : AsyncLogging τ :=
  match s.nextBuffer with
  | some _ => s
  | none => { s.takeBufferLocked.2 with nextBuffer := some s.takeBufferLocked.1 }

/-- The current buffer goes to `work_list_`. -/
def rotate (s : AsyncLogging τ) : AsyncLogging τ :=
  refill
    { s with
      workList := s.workList ++ [⟨s.currentBuffer, s.currentBufferLen⟩]
      currentBuffer := none
      currentBufferLen := 0 }

/-! ## `Append` -/

def drop (s : AsyncLogging τ) (record : Bytes) : AsyncLogging τ :=
  { s with dropped := s.dropped ++ [record] }

/-- The `memcpy` of `Append`. -/
def copy (s : AsyncLogging τ) (record : Bytes) : AsyncLogging τ :=
  match s.currentBuffer with
  | none => { s with fault := true }
  | some block =>
      if s.currentBufferLen + record.length ≤ kBackendbuffersize then
        { s with
          currentBuffer := some (block.memcpy s.currentBufferLen record)
          currentBufferLen := toUnsigned (s.currentBufferLen + record.length)
          accepted := s.accepted ++ [record] }
      else { s with fault := true }

/-- The record does not fit in what is left of the current buffer. -/
def overfull (s : AsyncLogging τ) (record : Bytes) : Bool :=
  decide (subUnsigned kBackendbuffersize s.currentBufferLen < record.length)

/-- The critical section of `Append` while `running_` is set. -/
def place (s : AsyncLogging τ) (record : Bytes) : AsyncLogging τ :=
  let s := if s.currentBuffer.isNone then s.refill else s
  let s :=
    if s.overfull record then
      if kBackendbufferlimit ≤ s.workList.length then s.drop record
      else s.rotate.copy record
    else s.copy record
  s.fillNext

/-- The thread goes inside `Append` or leaves it, and `AppendGuard` sets its flag. -/
def setCaller (s : AsyncLogging τ) (t : τ) (caller : Caller) : AsyncLogging τ :=
  { s with
    appending := Function.update s.appending t caller.isInside
    callers := Function.update s.callers t caller }

/-- `Append` up to its critical section.  A thread that is already in `Append` would write
to standard error. -/
def call (s : AsyncLogging τ) (t : τ) (record : Bytes) : AsyncLogging τ :=
  if s.running then
    if s.appending t then s.drop record else s.setCaller t (.inside record)
  else s.drop record

/-- `Append` from its critical section on. -/
def append (s : AsyncLogging τ) (t : τ) : AsyncLogging τ :=
  match s.callers t with
  | .outside => s
  | .inside record =>
      (if s.running then s.place record else s.drop record).setCaller t .outside

/-! ## The backend thread and the destructor -/

def fwrite (s : AsyncLogging τ) (p : PendingBuffer) : AsyncLogging τ :=
  match p.data with
  | none => if p.len = 0 then s else { s with fault := true }
  | some block =>
      if p.len ≤ kBackendbuffersize then { s with file := s.file ++ block.read p.len }
      else { s with fault := true }

/-- The first critical section of the backend thread. -/
def collect (s : AsyncLogging τ) : AsyncLogging τ :=
  let s := if s.currentBuffer.isSome && decide (0 < s.currentBufferLen) then s.rotate else s
  { s with
    workList := []
    tempWorkList := s.workList
    backend := if !s.running && s.workList.isEmpty then .ended else .writing }

/-- One `fwrite` of the backend thread. -/
def write (s : AsyncLogging τ) : AsyncLogging τ :=
  match s.tempWorkList with
  | [] => s
  | p :: rest => { s.fwrite p with tempWorkList := rest, written := s.written ++ [p] }

/-- The second critical section.  The last two buffers written were kept for it in
`reusable_buffers`. -/
def recycle (s : AsyncLogging τ) : AsyncLogging τ :=
  let reusable := (s.written.reverse.filterMap PendingBuffer.data).take 2
  { (reusable.reverse.foldl recycleBufferLocked s).fillNext with
    backend := .waiting
    written := [] }

/-- What is left goes to the destructor, which writes the current buffer last and only if
there is something in it. -/
def take (s : AsyncLogging τ) : AsyncLogging τ :=
  { s with
    destructor := .flushing
    remaining := s.workList ++
      if s.currentBuffer.isSome && decide (0 < s.currentBufferLen) then
        [⟨s.currentBuffer, s.currentBufferLen⟩]
      else []
    workList := []
    currentBuffer := none
    currentBufferLen := 0
    nextBuffer := none
    emptyBuffers := [] }

/-- One `fwrite` of the destructor, or its end. -/
def flush (s : AsyncLogging τ) : AsyncLogging τ :=
  match s.remaining with
  | [] => { s with destructor := .finished }
  | p :: rest => { s.fwrite p with remaining := rest }

def next (s : AsyncLogging τ) : LogStep τ → AsyncLogging τ
  | .call t record => s.call t record
  | .append t => s.append t
  | .startBackend => { s with backend := .waiting }
  | .collect => s.collect
  | .write => s.write
  | .recycle => s.recycle
  | .stop => { s with running := false, destructor := .joining }
  | .join => { s with destructor := .joined }
  | .take => s.take
  | .flush => s.flush

/-! ## When a step can be taken -/

/-- Nobody calls `Append` on an object that is gone. -/
def Possible (s : AsyncLogging τ) : LogStep τ → Prop
  | .call t record =>
      s.callers t = .outside ∧ record.length ≤ kLoggerbuffersize ∧ s.destructor ≠ .finished
  | .append t => (s.callers t).isInside = true ∧ s.destructor ≠ .finished
  | .startBackend => s.backend = .notStarted ∧ s.destructor = .no
  | .collect => s.backend = .waiting
  | .write => s.backend = .writing ∧ s.tempWorkList.isEmpty = false
  | .recycle => s.backend = .writing ∧ s.tempWorkList.isEmpty = true
  | .stop => s.destructor = .no
  | .join => s.destructor = .joining ∧ s.backend.isRunning = false
  | .take => s.destructor = .joined
  | .flush => s.destructor = .flushing

instance (s : AsyncLogging τ) : (l : LogStep τ) → Decidable (s.Possible l)
  | .call t record => inferInstanceAs (Decidable
      (s.callers t = .outside ∧ record.length ≤ kLoggerbuffersize ∧ s.destructor ≠ .finished))
  | .append t =>
      inferInstanceAs (Decidable ((s.callers t).isInside = true ∧ s.destructor ≠ .finished))
  | .startBackend =>
      inferInstanceAs (Decidable (s.backend = .notStarted ∧ s.destructor = .no))
  | .collect => inferInstanceAs (Decidable (s.backend = .waiting))
  | .write => inferInstanceAs
      (Decidable (s.backend = .writing ∧ s.tempWorkList.isEmpty = false))
  | .recycle => inferInstanceAs
      (Decidable (s.backend = .writing ∧ s.tempWorkList.isEmpty = true))
  | .stop => inferInstanceAs (Decidable (s.destructor = .no))
  | .join => inferInstanceAs
      (Decidable (s.destructor = .joining ∧ s.backend.isRunning = false))
  | .take => inferInstanceAs (Decidable (s.destructor = .joined))
  | .flush => inferInstanceAs (Decidable (s.destructor = .flushing))

end AsyncLogging

def logging (τ : Type) [DecidableEq τ] : Machine (AsyncLogging τ) (LogStep τ) where
  next := AsyncLogging.next
  enabled := AsyncLogging.Possible

instance {τ : Type} [DecidableEq τ] (s : AsyncLogging τ) (l : LogStep τ) :
    Decidable ((logging τ).enabled s l) := inferInstanceAs (Decidable (s.Possible l))

end Adachi.Tool
