import Adachi.Network.Conversation
import Adachi.Network.PollerMask

/-!
# How a graceful close ends

`Close` with data in the write buffer leaves the connection in `kDisConnecting`.  Nothing but
`WriteFd` disconnects it then, so it has to stay registered for the write event, and whether it
is ever closed is up to what `write(2)` takes.

## Main results

* `closing_waits`: a connection in `kDisConnecting` is registered for the write event, also where
  `Activate` has taken the event out of the mask before.
* `close_completes_iff`: it is disconnected exactly when `write(2)` has taken as many bytes as
  were buffered, and these are the bytes that it has taken.
-/

namespace Adachi.Network

open Adachi.Io

/-- The bytes that `write(2)` takes in a `WriteFd` -/
def Label.flushed (l : Label) : Nat :=
  match l.op with
  | .writeFd (.ok n) => n
  | _ => 0

/-- The bytes taken in the `WriteFd` calls of a run -/
def flushedBytes (ls : List Label) : Nat := (ls.map Label.flushed).sum

@[simp] theorem flushedBytes_nil : flushedBytes [] = 0 := rfl

@[simp] theorem flushedBytes_concat (ls : List Label) (l : Label) :
    flushedBytes (ls ++ [l]) = flushedBytes ls + l.flushed := by
  simp [flushedBytes]

namespace TcpConnection

variable {c : TcpConnection} {accepted : Bytes}

/-! ## The write event of a closing connection -/

/-- While it closes, the connection is registered for the write event. -/
def AwaitsWrite (c : TcpConnection) : Prop :=
  c.status = .kDisConnecting →
    c.channel.interest = some c.channel.events ∧ c.channel.WantsWrite

theorem awaitsWrite_of_ne (hs : c.status ≠ .kDisConnecting) : c.AwaitsWrite :=
  fun h => absurd h hs

theorem AwaitsWrite.of_eq {c' : TcpConnection} (h : c.AwaitsWrite) (hstatus : c'.status = c.status)
    (hchannel : c'.channel = c.channel) : c'.AwaitsWrite := by
  intro hs
  rw [hchannel]
  exact h (hstatus ▸ hs)

theorem AwaitsWrite.closeInThread (h : c.AwaitsWrite) (hsound : c.Sound) :
    (c.closeInThread .success).AwaitsWrite := by
  unfold TcpConnection.closeInThread
  split
  · exact h
  · rename_i hopen
    split
    · exact awaitsWrite_of_ne nofun
    · intro _
      have howner := (hsound.connected hopen).1
      have hevents : (c.channel.setActive (c.channel.events ||| Channel.kWrite) true).events =
          c.channel.events ||| Channel.kWrite := Channel.setActive_events ..
      have hwants : (c.channel.events ||| Channel.kWrite) &&& Channel.kWrite ≠ 0 :=
        Channel.or_kWrite c.channel.events
      rw [← hevents] at hwants
      exact ⟨(Channel.setActive_interest howner _).trans (congrArg some hevents.symm), hwants⟩

theorem AwaitsWrite.close (h : c.AwaitsWrite) (hsound : c.Sound) :
    (c.close .success).AwaitsWrite := by
  unfold TcpConnection.close
  split
  · exact h
  · dsimp only
    split
    · exact h
    · exact AwaitsWrite.closeInThread (c := c.requestClose) h hsound.requestClose

theorem AwaitsWrite.activateInThread (h : c.AwaitsWrite) :
    (c.activateInThread .success).AwaitsWrite := by
  unfold TcpConnection.activateInThread
  split
  · exact h
  · rename_i hs
    apply awaitsWrite_of_ne
    rw [setActive_status, not_not.1 hs]
    exact nofun

/-- A message leaves the connection open, or disconnects it. -/
theorem AwaitsWrite.writeInThread (h : c.AwaitsWrite) (message : Bytes) (r : SysResult Nat) :
    (c.writeInThread message r .success).AwaitsWrite := by
  unfold TcpConnection.writeInThread
  split
  · exact h
  · rename_i hs
    have hput : (c.putMessage message r .success).status ≠ .kDisConnecting := by
      rcases putMessage_channel (not_not.1 hs) message r .success with hdone | ⟨hopen, _⟩
      · simp [hdone]
      · simp [hopen]
    dsimp only
    split
    · exact awaitsWrite_of_ne hput
    · exact awaitsWrite_of_ne hput

theorem awaitsWrite_flushed (c : TcpConnection) (ctl : EpollCtl) : (c.flushed ctl).AwaitsWrite := by
  apply awaitsWrite_of_ne
  unfold TcpConnection.flushed
  dsimp only
  split
  · exact nofun
  · assumption

theorem AwaitsWrite.writeFd (h : c.AwaitsWrite) (hsound : c.Sound) (r : SysResult Nat) :
    (c.writeFd r .success).AwaitsWrite := by
  have hflush : (c.flush r .success).AwaitsWrite := by
    cases r with
    | ok n => exact h.of_eq rfl rfl
    | error e =>
        rw [flush_error]
        split
        · exact AwaitsWrite.close (c := c.emit [.writeFailed e]) h (hsound.emit (by simp))
        · exact h
  unfold TcpConnection.writeFd
  split
  · exact h
  · dsimp only
    split
    · exact awaitsWrite_flushed _ .success
    · exact hflush

/-- **Step lemma.** -/
theorem AwaitsWrite.step (h : c.AwaitsWrite) (hsound : c.Sound) {l : Label}
    (hctl : l.ctl = .success) : (c.step l).AwaitsWrite := by
  obtain ⟨op, ctl⟩ := l
  dsimp only at hctl
  subst hctl
  cases op with
  | activate =>
      show (c.activate .success).AwaitsWrite
      rw [hsound.activate_eq]
      exact h.activateInThread
  | activateInThread => exact h.activateInThread
  | write message r =>
      show (c.write message r .success).AwaitsWrite
      rw [hsound.write_eq]
      exact h.writeInThread message r
  | writeInThread message r => exact h.writeInThread message r
  | writeFd r => exact h.writeFd hsound r
  | close => exact h.close hsound
  | requestClose => exact h
  | closeInThread => exact h.closeInThread hsound

/-- **A closing connection waits for the write event.**  In every run whose `epoll_ctl` calls
succeed, whatever `write(2)` returns: in `kDisConnecting` there is data to send, the channel is in
its loop, and the events it is registered for contain the write event. -/
theorem closing_waits (loop : LoopId) (fd size : Nat) (callback added : Bool) (ls : List Label)
    (hlegal : connection.Legal (new loop fd size callback added) ls)
    (hctl : ∀ l ∈ ls, l.ctl = .success) :
    let c := connection.run (new loop fd size callback added) ls
    c.status = .kDisConnecting →
      c.writeBuffer.empty = false ∧ c.channel.owner.isSome ∧
        c.channel.interest = some c.channel.events ∧ c.channel.WantsWrite := by
  intro c hs
  have hrun : c.Sound ∧ c.AwaitsWrite := by
    clear hs
    induction ls using List.reverseRecOn with
    | nil => exact ⟨sound_new loop fd size callback added, awaitsWrite_of_ne nofun⟩
    | append_singleton ls l ih =>
        obtain ⟨hsound, hawaits⟩ := ih (Machine.Legal.of_append _ hlegal)
          fun k hk => hctl k (List.mem_append_left _ hk)
        show (connection.run _ (ls ++ [l])).Sound ∧ (connection.run _ (ls ++ [l])).AwaitsWrite
        rw [connection.run_concat]
        exact ⟨hsound.step l, hawaits.step hsound (hctl l (by simp))⟩
  have hopen : c.status ≠ .kDisConnected := by simp [hs]
  exact ⟨hrun.1.disconnecting hs, (hrun.1.connected hopen).1, hrun.2 hs⟩

/-! ## What is left to send -/

theorem sentBytes_flushed (c : TcpConnection) (ctl : EpollCtl) :
    sentBytes (c.flushed ctl).effects = sentBytes c.effects := by
  unfold TcpConnection.flushed
  dsimp only
  split
  · simp only [closeSocket_effects, removeFromLoop_effects, runCloseCallback_effects,
      setStatus_effects, unsetWrite_effects, sentBytes_append]
    split <;> split <;> split <;> simp [sentBytes]
  · rw [unsetWrite_effects]

/-- **Step lemma.**  Once the connection closes, `WriteFd` alone sends. -/
theorem Delivered.flushed_step (h : c.Delivered accepted) (hs : c.status ≠ .kConnecting)
    {l : Label} (hpossible : c.Possible l) :
    (sentBytes (c.step l).effects).length = (sentBytes c.effects).length + l.flushed := by
  by_cases hdone : c.status = .kDisConnected
  · have hunread := h.drained hdone
    have hnone : l.flushed = 0 := by
      obtain ⟨op, ctl⟩ := l
      cases op with
      | writeFd r =>
          cases r with
          | ok n =>
              have hle : n ≤ c.writeBuffer.size := hpossible.1
              rw [Buffer.size_eq h.fits.toWF, hunread] at hle
              exact Nat.le_zero.1 hle
          | error e => rfl
      | _ => rfl
    obtain ⟨closeRequested, hstep⟩ := step_disconnected hdone l
    rw [hstep, hnone, Nat.add_zero]
  · obtain ⟨op, ctl⟩ := l
    have hactivate : c.activateInThread ctl = c := if_pos hs
    cases op with
    | activate =>
        show (sentBytes (c.activate ctl).effects).length = _
        unfold activate
        rw [hactivate, ite_self]
        rfl
    | activateInThread =>
        show (sentBytes (c.activateInThread ctl).effects).length = _
        rw [hactivate]
        rfl
    | write message r =>
        have hwrite : c.writeInThread message r ctl = c := if_pos hs
        show (sentBytes (c.write message r ctl).effects).length = _
        unfold write
        rw [hwrite, ite_self]
        rfl
    | writeInThread message r =>
        have hwrite : c.writeInThread message r ctl = c := if_pos hs
        show (sentBytes (c.writeInThread message r ctl).effects).length = _
        rw [hwrite]
        rfl
    | writeFd r =>
        have hsent : (sentBytes (c.flush r ctl).effects).length =
            (sentBytes c.effects).length + (⟨.writeFd r, ctl⟩ : Label).flushed := by
          cases r with
          | ok n =>
              have hn : n ≤ c.writeBuffer.unread.length := by
                rw [← Buffer.size_eq h.fits.toWF]
                exact hpossible.1
              have htake : (c.writeBuffer.cReadData.take n).length = n := by
                rw [← Nat.min_eq_left hn, ← List.take_take, Buffer.cReadData_take h.fits.toWF]
                simp
              simp [TcpConnection.flush_ok, sentBytes_append, sentBytes, htake, Label.flushed]
          | error e =>
              rw [TcpConnection.flush_error]
              split
              · rw [sentBytes_close, emit_effects, sentBytes_append]
                simp [sentBytes, Label.flushed]
              · rw [emit_effects, sentBytes_append]
                simp [sentBytes, Label.flushed]
        show (sentBytes (c.writeFd r ctl).effects).length = _
        unfold TcpConnection.writeFd
        rw [if_neg hdone]
        dsimp only
        split
        · rw [sentBytes_flushed, hsent]
        · exact hsent
    | close => exact congrArg List.length (sentBytes_close c ctl)
    | requestClose => rfl
    | closeInThread => exact congrArg List.length (sentBytes_closeInThread c ctl)

theorem Gentle.of_append {start : TcpConnection} {ls ms : List Label}
    (h : Gentle start (ls ++ ms)) : Gentle start ls := by
  induction ms using List.reverseRecOn with
  | nil => rwa [List.append_nil] at h
  | append_singleton ms l ih =>
      rw [← List.append_assoc] at h
      exact ih h.concat.1

/-- **Run lemma.** -/
theorem Gentle.flushed_run {loop : LoopId} {fd size : Nat} (hsize : size < 2 ^ 31)
    {callback added : Bool} {ls ms : List Label}
    (hlegal : connection.Legal (new loop fd size callback added) (ls ++ ms))
    (hgentle : Gentle (new loop fd size callback added) (ls ++ ms))
    (hs : (connection.run (new loop fd size callback added) ls).status ≠ .kConnecting) :
    (sentBytes (connection.run (new loop fd size callback added) (ls ++ ms)).effects).length =
      (sentBytes (connection.run (new loop fd size callback added) ls).effects).length +
        flushedBytes ms := by
  induction ms using List.reverseRecOn with
  | nil => simp
  | append_singleton ms l ih =>
      rw [← List.append_assoc] at hlegal hgentle ⊢
      have hbefore := Machine.Legal.of_append _ hlegal
      have hsent := ih hbefore hgentle.concat.1
      have hsound := sound_run loop fd size callback added (ls ++ ms) hbefore
      have hdelivered := delivered_run loop fd hsize callback added (ls ++ ms) hbefore
        hgentle.concat.1
      have hclosing :
          (connection.run (new loop fd size callback added) (ls ++ ms)).status ≠ .kConnecting := by
        rw [connection.run_append]
        exact (Sound.not_connecting_run (sound_run loop fd size callback added ls
          (Machine.Legal.of_append _ hbefore)) hs ms).1
      have hstep := hdelivered.flushed_step hclosing (Machine.Legal.enabled_at _ hlegal)
      rw [connection.run_concat, flushedBytes_concat, ← Nat.add_assoc, ← hsent]
      exact hstep

/-- **A close completes when everything is sent, and only then.**  Take any run with fewer than
`2 ^ 31` bytes pending and without writes that fail for good (`Gentle`), and a point of it at
which the connection is in `kDisConnecting`.  Later it is torn down exactly when the `WriteFd`
calls since have had as many bytes taken as were buffered then, however they are cut and whatever
is called in between; and what they have sent are these bytes, in order, and no others. -/
theorem close_completes_iff (loop : LoopId) (fd : Nat) {size : Nat} (hsize : size < 2 ^ 31)
    (callback added : Bool) (ls ms : List Label)
    (hlegal : connection.Legal (new loop fd size callback added) (ls ++ ms))
    (hgentle : Gentle (new loop fd size callback added) (ls ++ ms)) :
    let c := connection.run (new loop fd size callback added) ls
    let c' := connection.run (new loop fd size callback added) (ls ++ ms)
    c.status = .kDisConnecting →
      (c'.TornDown ↔ flushedBytes ms = c.writeBuffer.unread.length) ∧
      sentBytes c'.effects =
        sentBytes c.effects ++ c.writeBuffer.unread.take (flushedBytes ms) := by
  intro c c' hs
  have hne : c.status ≠ .kConnecting := by simp [hs]
  have hopen : c.status ≠ .kDisConnected := by simp [hs]
  have hbefore := Machine.Legal.of_append _ hlegal
  have hsound : c.Sound := sound_run loop fd size callback added ls hbefore
  have hsound' : c'.Sound := sound_run loop fd size callback added (ls ++ ms) hlegal
  obtain ⟨hclosing, hnone⟩ := hsound.not_connecting_run hne ms
  have hlength : (sentBytes c'.effects).length =
      (sentBytes c.effects).length + flushedBytes ms := hgentle.flushed_run hsize hlegal hne
  have hdelivered : c'.Delivered
      (connection.collect accepts (new loop fd size callback added) (ls ++ ms)) :=
    delivered_run loop fd hsize callback added (ls ++ ms) hlegal hgentle
  have hdelivered₀ :
      c.Delivered (connection.collect accepts (new loop fd size callback added) ls) :=
    delivered_run loop fd hsize callback added ls hbefore hgentle.of_append
  have hqueue : sentBytes c'.effects ++ c'.writeBuffer.unread =
      sentBytes c.effects ++ c.writeBuffer.unread := by
    rw [hdelivered.queue, hdelivered₀.queue, connection.collect_append, hnone, List.append_nil]
  have hleft := congrArg List.length hqueue
  rw [List.length_append, List.length_append, hlength] at hleft
  have htorn : c'.TornDown ↔ c'.writeBuffer.unread.length = 0 := by
    rw [List.length_eq_zero_iff]
    constructor
    · exact fun htorn => hdelivered.drained htorn.status
    · intro hempty
      apply hsound'.disconnected
      cases hs' : c'.status with
      | kDisConnected => rfl
      | kConnecting =>
          change (connection.run _ (ls ++ ms)).status = _ at hs'
          rw [connection.run_append] at hs'
          exact absurd hs' hclosing
      | kDisConnecting =>
          have hfull := hsound'.disconnecting hs'
          rw [(Buffer.empty_iff hdelivered.fits.toWF).2 hempty] at hfull
          cases hfull
  constructor
  · rw [htorn]
    omega
  · have hfront := congrArg (List.take (sentBytes c'.effects).length) hqueue
    rw [List.take_left', hlength, List.take_length_add_append] at hfront
    · exact hfront
    · rfl

end TcpConnection

/-- Data is written before `Activate`, which takes the write event out of the mask; `Close` puts
it back. -/
theorem closing_waits_activated :
    let c := TcpConnection.new 0 5 16 true true
    let ls : List Label :=
      [⟨.write [1] (.error .eagain), .success⟩, ⟨.activate, .success⟩, ⟨.close, .success⟩]
    (connection.run c ls).channel.WantsWrite := by
  intro c ls
  exact (TcpConnection.closing_waits 0 5 16 true true ls (by decide) (by decide) (by decide)).2.2.2

/-- Three bytes are buffered when the connection is asked to close, and go in two writes. -/
theorem close_completes_iff_twice :
    let c := TcpConnection.new 0 5 16 true true
    let ls : List Label :=
      [⟨.write [1, 2, 3] (.error .eagain), .success⟩, ⟨.close, .success⟩]
    let ms : List Label :=
      [⟨.writeFd (.ok 2), .success⟩, ⟨.writeFd (.error .eintr), .success⟩,
        ⟨.writeFd (.ok 1), .success⟩]
    (connection.run c (ls ++ ms)).TornDown := by
  intro c ls ms
  have hgentle : TcpConnection.Gentle c (ls ++ ms) := ⟨by decide, by decide⟩
  exact ((TcpConnection.close_completes_iff 0 5 (by decide) true true ls ms (by decide) hgentle
    (by decide)).1).2 (by decide)

end Adachi.Network
