import Adachi.Network.ConnectionRuns

/-!
# When a failed write tears the connection down

A write that fails for good in `WriteInThread` goes straight to `CloseInThread`, with
nothing buffered.  In `WriteFd` it goes through `Close`, which does nothing once a
close has been requested, and whose `CloseInThread` waits for the buffered data to
be sent, over the very descriptor that has just failed.

## Main results

* `teardown_iff`: after which failed writes the connection is torn down.
-/

namespace Adachi.Network

open Adachi.Io

namespace TcpConnection

/-- Nothing is buffered, and `WriteFd` can still request the close. -/
def CanTearDown (c : TcpConnection) (l : Label) : Prop :=
  match l.op with
  | .writeFd _ => c.writeBuffer.empty = true ∧ c.closeRequested = false
  | _ => c.writeBuffer.empty = true

instance (c : TcpConnection) : (l : Label) → Decidable (c.CanTearDown l)
  | ⟨.writeFd _, _⟩ =>
      inferInstanceAs (Decidable (c.writeBuffer.empty = true ∧ c.closeRequested = false))
  | ⟨.activate, _⟩ | ⟨.activateInThread, _⟩ | ⟨.write _ _, _⟩ | ⟨.writeInThread _ _, _⟩
  | ⟨.close, _⟩ | ⟨.requestClose, _⟩ | ⟨.closeInThread, _⟩ =>
      inferInstanceAs (Decidable (c.writeBuffer.empty = true))

variable {c : TcpConnection}

theorem TornDown.setActive (h : c.TornDown) (events : Events) (ctl : EpollCtl) :
    (c.setActive events ctl).TornDown := by
  obtain ⟨status, owner, removed, fd, closed, callback⟩ := h
  refine ⟨status, ?_, removed, fd, closed, callback⟩
  rw [setActive_channel, Channel.setActive_owner, owner]

theorem TornDown.unsetWrite (h : c.TornDown) (ctl : EpollCtl) :
    (c.unsetWrite ctl).TornDown := by
  unfold TcpConnection.unsetWrite
  split
  · exact h.setActive _ _
  · exact h

/-! ## `Close` -/

theorem close_tornDown (h : c.Sound) (hs : c.status ≠ .kDisConnected)
    (hrequested : c.closeRequested = false) (hempty : c.writeBuffer.empty = true)
    (ctl : EpollCtl) : (c.close ctl).TornDown := by
  obtain ⟨howner, hfd⟩ := h.connected hs
  unfold TcpConnection.close
  rw [hrequested, if_neg Bool.false_ne_true]
  dsimp only
  rw [if_neg (Option.isSome_iff_ne_none.1 howner)]
  exact closeInThread_tornDown (c := { c with closeRequested := true }) howner hfd hs hempty ctl

/-- With data buffered, or once a close has been requested, `Close` does not
disconnect. -/
theorem close_status (h : c.Sound) (hs : c.status ≠ .kDisConnected)
    (hblocked : ¬(c.writeBuffer.empty = true ∧ c.closeRequested = false)) (ctl : EpollCtl) :
    (c.close ctl).status ≠ .kDisConnected := by
  obtain ⟨howner, _⟩ := h.connected hs
  unfold TcpConnection.close
  cases hrequested : c.closeRequested with
  | true =>
      rwa [if_pos rfl]
  | false =>
      have hfull : c.writeBuffer.empty ≠ true := fun hempty => hblocked ⟨hempty, hrequested⟩
      rw [if_neg Bool.false_ne_true]
      dsimp only
      rw [if_neg (Option.isSome_iff_ne_none.1 howner)]
      unfold TcpConnection.closeInThread
      dsimp only
      rw [if_neg hs, if_neg hfull]
      exact nofun

/-! ## The failing writes -/

theorem writeInThread_fatal (h : c.Sound) (hs : c.status = .kConnecting)
    (hempty : c.writeBuffer.empty = true) {e : Errno} (he : e.retryable = false)
    (message : Bytes) (ctl : EpollCtl) :
    (c.writeInThread message (.error e) ctl).TornDown := by
  obtain ⟨howner, hfd⟩ := h.connected (ne_disconnected_of_connecting hs)
  have hput : (c.putMessage message (.error e) ctl).TornDown := by
    unfold TcpConnection.putMessage
    rw [if_pos hempty]
    dsimp only
    rw [he, if_pos (by decide)]
    exact closeInThread_tornDown (c := c.emit _) howner hfd
      (ne_disconnected_of_connecting hs) hempty ctl
  unfold TcpConnection.writeInThread
  rw [if_neg (not_not.2 hs)]
  dsimp only
  split
  · exact hput.setActive _ _
  · exact hput

theorem writeFd_fatal (h : c.Sound) (hs : c.status ≠ .kDisConnected) {e : Errno}
    (he : e.retryable = false) (ctl : EpollCtl) :
    (c.writeFd (.error e) ctl).TornDown ↔
      c.writeBuffer.empty = true ∧ c.closeRequested = false := by
  have hflush : c.flush (.error e) ctl = (c.emit [.writeFailed e]).close ctl := by
    rw [TcpConnection.flush_error, he]
    exact if_pos (by decide)
  have hstatus := h.flush_error_status e ctl
  rw [hflush] at hstatus
  have hfailed : (c.emit [.writeFailed e]).Sound := h.emit (by simp)
  unfold TcpConnection.writeFd
  rw [if_neg hs, hflush]
  dsimp only
  by_cases hcan : c.writeBuffer.empty = true ∧ c.closeRequested = false
  · have htorn := close_tornDown hfailed hs hcan.2 hcan.1 ctl
    refine iff_of_true ?_ hcan
    split
    · rename_i hempty
      rw [flushed_of_ne (hstatus hempty)]
      exact htorn.unsetWrite ctl
    · exact htorn
  · have hclose := close_status hfailed hs hcan ctl
    refine iff_of_false ?_ hcan
    intro htorn
    split at htorn
    · rename_i hempty
      rw [flushed_of_ne (hstatus hempty)] at htorn
      exact hclose (by rw [← htorn.status, unsetWrite_status])
    · exact hclose htorn.status

/-! ## Runs -/

/-- A connection that is torn down makes no more calls of `write(2)`. -/
theorem not_fatalWrite_of_disconnected (hs : c.status = .kDisConnected) (l : Label) :
    ¬c.FatalWrite l := by
  obtain ⟨op, ctl⟩ := l
  unfold FatalWrite
  dsimp only
  split
  · exact fun hfatal => ne_disconnected_of_connecting hfatal.2.1 hs
  · exact fun hfatal => ne_disconnected_of_connecting hfatal.1 hs
  · exact fun hfatal => hfatal.1 hs
  · exact id

/-- **Step lemma.** -/
theorem fatalWrite_tornDown_iff (h : c.Sound) {l : Label} (hfatal : c.FatalWrite l) :
    (c.step l).TornDown ↔ c.CanTearDown l := by
  obtain ⟨op, ctl⟩ := l
  unfold FatalWrite at hfatal
  dsimp only at hfatal
  split at hfatal
  · obtain ⟨_, hs, hempty, he⟩ := hfatal
    refine iff_of_true ?_ hempty
    change (c.write _ _ ctl).TornDown
    rw [h.write_eq]
    exact writeInThread_fatal h hs hempty he _ ctl
  · obtain ⟨hs, hempty, he⟩ := hfatal
    exact iff_of_true (writeInThread_fatal h hs hempty he _ ctl) hempty
  · obtain ⟨hs, he⟩ := hfatal
    exact writeFd_fatal h hs he ctl
  · exact hfatal.elim

/-- **When a failed write tears the connection down.**  In every run of a new
connection, the state after a fatal write is torn down exactly when nothing was
buffered before it and, for `WriteFd`, no close had been requested; and after one
that tears down there is no other fatal write. -/
theorem teardown_iff (loop : LoopId) (fd size : Nat) (callback added : Bool) :
    (∀ (ls : List Label) (l : Label),
      connection.Legal (new loop fd size callback added) (ls ++ [l]) →
      (connection.run (new loop fd size callback added) ls).FatalWrite l →
        ((connection.run (new loop fd size callback added) (ls ++ [l])).TornDown ↔
          (connection.run (new loop fd size callback added) ls).CanTearDown l)) ∧
    (∀ (ls ms : List Label) (l l' : Label),
      connection.Legal (new loop fd size callback added) (ls ++ l :: ms ++ [l']) →
      (connection.run (new loop fd size callback added) ls).FatalWrite l →
      (connection.run (new loop fd size callback added) ls).CanTearDown l →
        ¬(connection.run (new loop fd size callback added) (ls ++ l :: ms)).FatalWrite l') := by
  constructor
  · intro ls l hlegal hfatal
    have hsound := sound_run loop fd size callback added ls (Machine.Legal.of_append _ hlegal)
    rw [Machine.run_concat]
    exact fatalWrite_tornDown_iff hsound hfatal
  · intro ls ms l l' hlegal hfatal hcan
    rw [List.append_assoc] at hlegal
    have hsound := sound_run loop fd size callback added ls (Machine.Legal.of_append _ hlegal)
    have htorn := (fatalWrite_tornDown_iff hsound hfatal).2 hcan
    apply not_fatalWrite_of_disconnected
    rw [Machine.run_append, Machine.run_cons]
    exact run_disconnected htorn.status ms

end TcpConnection

/-! ## A run with two fatal writes -/

/-- `EPIPE` -/
def epipe : Errno := .other 32

/-- A message is buffered; then `WriteFd` fails twice, with `EPIPE`. -/
theorem teardown_twice :
    let c := TcpConnection.new 0 5 16 true true
    let buffered : Label := ⟨.write [1] (.error .eagain), ⟨true, true⟩⟩
    let failing : Label := ⟨.writeFd (.error epipe), ⟨true, true⟩⟩
    connection.Legal c [buffered, failing, failing] ∧
      (connection.run c [buffered]).FatalWrite failing ∧
      ¬(connection.run c [buffered, failing]).TornDown ∧
      (connection.run c [buffered, failing]).FatalWrite failing := by
  intro c buffered failing
  refine ⟨by decide, by decide, ?_, by decide⟩
  intro htorn
  have hs : (connection.run c [buffered, failing]).status = .kDisConnecting := by decide
  rw [htorn.status] at hs
  cases hs

/-- With nothing buffered, a fatal `WriteFd` tears down. -/
theorem teardown_iff_empty :
    let c := TcpConnection.new 0 5 16 true true
    let failing : Label := ⟨.writeFd (.error epipe), ⟨true, true⟩⟩
    (connection.run c ([] ++ [failing])).TornDown ∧
      ¬(connection.run c ([] ++ failing :: [])).FatalWrite failing := by
  intro c failing
  exact ⟨((TcpConnection.teardown_iff 0 5 16 true true).1 [] failing (by decide) (by decide)).2
      (by decide),
    (TcpConnection.teardown_iff 0 5 16 true true).2 [] [] failing failing (by decide) (by decide)
      (by decide)⟩

end Adachi.Network
