import Adachi.Io.WriteCall
import Adachi.Network.ConnectionRuns

/-!
# What a connection does to its write buffer

A step of a connection changes the write buffer by at most one call of `WriteBuffer`
(`writeCall`) or by `WriteFd`.

## Main results

* `step_writeBuffer`: what a step does to the buffer.
* `each_inRange_iff`: in a run the `WriteBuffer` calls stay in the range of `int` exactly as
  long as there is room for them.
-/

namespace Adachi.Network

open Adachi.Io

namespace TcpConnection

variable {c : TcpConnection}

/-! ## The calls -/

/-- The `WriteBuffer` call of `putMessage`, if it makes one. -/
def buffering (c : TcpConnection) (message : Bytes) (r : SysResult Nat) : Option WriteCall :=
  if c.writeBuffer.empty then
    match r with
    | .ok n =>
        if n ≠ message.length then some (.block (message.drop n) (message.length - n)) else none
    | .error e => if !e.retryable then none else some (.string message)
  else some (.string message)

/-- The `WriteBuffer` call of a step, if it makes one. -/
def writeCall (c : TcpConnection) (l : Label) : Option WriteCall :=
  match l.op with
  | .write message r =>
      if c.channel.owner = none ∨ c.status ≠ .kConnecting then none else c.buffering message r
  | .writeInThread message r =>
      if c.status ≠ .kConnecting then none else c.buffering message r
  | _ => none

/-- The write buffer after a call, if there is one. -/
def buffered (c : TcpConnection) (call : Option WriteCall) : Buffer :=
  call.elim c.writeBuffer (·.run c.writeBuffer)

theorem putMessage_writeBuffer (c : TcpConnection) (message : Bytes) (r : SysResult Nat)
    (ctl : EpollCtl) :
    (c.putMessage message r ctl).writeBuffer = c.buffered (c.buffering message r) := by
  unfold putMessage buffering
  by_cases hempty : c.writeBuffer.empty = true
  · rw [if_pos hempty, if_pos hempty]
    cases r with
    | ok n =>
        dsimp only
        by_cases hshort : n ≠ message.length
        · rw [if_pos hshort, if_pos hshort]
          rfl
        · rw [if_neg hshort, if_neg hshort]
          rfl
    | error e =>
        dsimp only
        cases e.retryable with
        | true => rfl
        | false => exact closeInThread_writeBuffer ..
  · rw [if_neg hempty, if_neg hempty]
    rfl

theorem writeInThread_writeBuffer (c : TcpConnection) (message : Bytes) (r : SysResult Nat)
    (ctl : EpollCtl) :
    (c.writeInThread message r ctl).writeBuffer =
      c.buffered (c.writeCall ⟨.writeInThread message r, ctl⟩) := by
  by_cases hs : c.status = .kConnecting
  · have hcall : c.writeCall ⟨.writeInThread message r, ctl⟩ = c.buffering message r :=
      if_neg (not_not.2 hs)
    rw [hcall, ← c.putMessage_writeBuffer message r ctl, writeInThread, if_neg (not_not.2 hs)]
    dsimp only
    split
    · rfl
    · rfl
  · have hcall : c.writeCall ⟨.writeInThread message r, ctl⟩ = none := if_pos hs
    rw [hcall, writeInThread, if_pos hs]
    rfl

theorem write_writeBuffer (c : TcpConnection) (message : Bytes) (r : SysResult Nat)
    (ctl : EpollCtl) :
    (c.write message r ctl).writeBuffer =
      c.buffered (c.writeCall ⟨.write message r, ctl⟩) := by
  by_cases howner : c.channel.owner = none
  · have hcall : c.writeCall ⟨.write message r, ctl⟩ = none := if_pos (.inl howner)
    rw [hcall, write, if_pos howner]
    rfl
  · rw [write, if_neg howner, writeInThread_writeBuffer]
    simp [writeCall, howner]

theorem writeFd_writeBuffer (c : TcpConnection) (r : SysResult Nat) (ctl : EpollCtl) :
    (c.writeFd r ctl).writeBuffer =
      if c.status = .kDisConnected then c.writeBuffer else (c.writeBuffer.writeFd r).2 := by
  have hflush : (c.flush r ctl).writeBuffer = (c.writeBuffer.writeFd r).2 := by
    cases r with
    | ok n => rfl
    | error e =>
        rw [flush_error]
        split
        · exact close_writeBuffer ..
        · rfl
  unfold writeFd
  by_cases hs : c.status = .kDisConnected
  · rw [if_pos hs, if_pos hs]
  · rw [if_neg hs, if_neg hs, ← hflush]
    dsimp only
    split
    · exact flushed_writeBuffer ..
    · rfl

/-- **What a step does to the write buffer**: a `WriteFd`, or a `WriteBuffer` call if it makes
one. -/
theorem step_writeBuffer (c : TcpConnection) (l : Label) :
    (∃ r, l.op = .writeFd r ∧ (c.step l).writeBuffer = (c.writeBuffer.writeFd r).2) ∨
      (c.step l).writeBuffer = c.buffered (c.writeCall l) := by
  obtain ⟨op, ctl⟩ := l
  cases op with
  | activate => exact .inr (activate_writeBuffer c ctl)
  | activateInThread => exact .inr (activateInThread_writeBuffer c ctl)
  | write message r => exact .inr (write_writeBuffer c message r ctl)
  | writeInThread message r => exact .inr (writeInThread_writeBuffer c message r ctl)
  | writeFd r =>
      have hstep : (c.step ⟨.writeFd r, ctl⟩).writeBuffer = _ := writeFd_writeBuffer c r ctl
      split at hstep
      · exact .inr hstep
      · exact .inl ⟨r, rfl, hstep⟩
  | close => exact .inr (close_writeBuffer c ctl)
  | requestClose => exact .inr rfl
  | closeInThread => exact .inr (closeInThread_writeBuffer c ctl)

/-- A write that is tried again later changes the write buffer only, and what `epoll` is asked
for. -/
theorem writeInThread_retry (hs : c.status = .kConnecting) {e : Errno}
    (he : e.retryable = true) (message : Bytes) (ctl : EpollCtl) :
    (c.writeInThread message (.error e) ctl).channel.owner = c.channel.owner ∧
      (c.writeInThread message (.error e) ctl).status = c.status := by
  have hput : (c.putMessage message (.error e) ctl).channel.owner = c.channel.owner ∧
      (c.putMessage message (.error e) ctl).status = c.status := by
    unfold putMessage
    split
    · dsimp only
      rw [he]
      exact ⟨rfl, rfl⟩
    · exact ⟨rfl, rfl⟩
  unfold writeInThread
  rw [if_neg (not_not.2 hs)]
  dsimp only
  split
  · exact ⟨(Channel.setActive_owner ..).trans hput.1, hput.2⟩
  · exact hput

/-! ## The condition, step by step -/

/-- The step's `WriteBuffer` call stays in range. -/
def InRange (c : TcpConnection) (l : Label) : Prop :=
  ∀ w ∈ c.writeCall l, w.InRange c.writeBuffer

/-- With what the write buffer holds, the step's `WriteBuffer` call makes fewer than `2 ^ 31`
bytes. -/
def Roomy (c : TcpConnection) (l : Label) : Prop :=
  ∀ w ∈ c.writeCall l, c.writeBuffer.size + w.bytes.length < 2 ^ 31

theorem inRange_iff (h : c.writeBuffer.Fits) (l : Label) : c.InRange l ↔ c.Roomy l :=
  forall₂_congr fun _ _ => WriteCall.inRange_iff h

/-- **Step lemma.** -/
theorem step_fits (h : c.writeBuffer.Fits) {l : Label} (hpossible : c.Possible l)
    (hroomy : c.Roomy l) : (c.step l).writeBuffer.Fits := by
  rcases c.step_writeBuffer l with ⟨r, hop, hstep⟩ | hstep
  · rw [hstep]
    cases r with
    | error e => exact h
    | ok n =>
        unfold TcpConnection.Possible at hpossible
        rw [hop] at hpossible
        have hn : n ≤ c.writeBuffer.unread.length := by
          rw [← Buffer.size_eq h.toWF]
          exact hpossible.1
        obtain ⟨_, hwf, _, hbuffer⟩ := Buffer.writeFd_spec h.toWF hn
        exact ⟨hwf, hbuffer ▸ h.capacity_lt⟩
  · rw [hstep]
    cases hcall : c.writeCall l with
    | none => exact h
    | some w => exact (WriteCall.run_spec h (hroomy w hcall)).1

/-! ## Runs -/

/-- **Run lemma.** -/
theorem run_fits (h : c.writeBuffer.Fits) {ls : List Label} (hlegal : connection.Legal c ls)
    (hroomy : connection.Each Roomy c ls) : (connection.run c ls).writeBuffer.Fits :=
  connection.run_invariant_each (I := fun c => c.writeBuffer.Fits) h
    (fun _ _ hfits hl hr => step_fits hfits hl hr) ls hlegal hroomy

/-- In a run the calls stay in range exactly as long as there is room. -/
theorem each_inRange_iff (h : c.writeBuffer.Fits) {ls : List Label}
    (hlegal : connection.Legal c ls) :
    connection.Each InRange c ls ↔ connection.Each Roomy c ls :=
  connection.each_congr (I := fun c => c.writeBuffer.Fits) h
    (fun _ l hfits _ => inRange_iff hfits l)
    (fun _ _ hfits hl hr => step_fits hfits hl hr) ls hlegal

end TcpConnection

end Adachi.Network
