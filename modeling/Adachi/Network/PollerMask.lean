import Adachi.Network.WriteCursor

/-!
# The interest in the write event

`WriteInThread` and `CloseInThread` add `kWrite` to the events of the channel,
`WriteFd` takes it out again, and all three do so in step with the buffer.
`Activate` does not: it overwrites the events.  A new-connection callback that
writes before the connection is activated can leave data in the buffer, and then
the poller is no longer asked to report the socket writable.

## Main results

* `pollerMask_iff`: in a run the events match the buffer throughout exactly when no
  `Activate` comes with data in the buffer and no message is so long that the cursors
  of the buffer wrap.
-/

namespace Adachi.Network

open Adachi.Io

/-- Every `epoll_ctl` call succeeds. -/
def EpollCtl.success : EpollCtl := ⟨true, true⟩

namespace TcpConnection

/-- Data is buffered exactly while the registered events contain `kWrite`. -/
def Polled (c : TcpConnection) : Prop :=
  c.status ≠ .kDisConnected →
    c.channel.interest = some c.channel.events ∧
      (c.writeBuffer.empty = false ↔ c.channel.WantsWrite)

/-- `Activate` runs with data in the buffer. -/
def OverwritesMask (c : TcpConnection) (l : Label) : Prop :=
  (l.op = .activate ∨ l.op = .activateInThread) ∧ c.status = .kConnecting ∧
    c.writeBuffer.empty = false

instance (c : TcpConnection) (l : Label) : Decidable (c.OverwritesMask l) := by
  unfold OverwritesMask
  infer_instance

/-- A message is added to buffered data and makes the cursors of the buffer wrap. -/
def WrapsAround (c : TcpConnection) (l : Label) : Prop :=
  match l.op with
  | .write message _ | .writeInThread message _ =>
      c.status = .kConnecting ∧ c.writeBuffer.empty = false ∧
        c.writeBuffer.Wraps message.length
  | _ => False

instance (c : TcpConnection) : (l : Label) → Decidable (c.WrapsAround l)
  | ⟨.write message _, _⟩ | ⟨.writeInThread message _, _⟩ =>
      inferInstanceAs (Decidable (c.status = .kConnecting ∧ c.writeBuffer.empty = false ∧
        c.writeBuffer.Wraps message.length))
  | ⟨.activate, _⟩ | ⟨.activateInThread, _⟩ | ⟨.writeFd _, _⟩
  | ⟨.close, _⟩ | ⟨.requestClose, _⟩ | ⟨.closeInThread, _⟩ =>
      inferInstanceAs (Decidable False)

/-- The steps after which the events still match the buffer. -/
def KeepsMask (c : TcpConnection) (l : Label) : Prop :=
  ¬c.OverwritesMask l ∧ ¬c.WrapsAround l

instance (c : TcpConnection) (l : Label) : Decidable (c.KeepsMask l) := by
  unfold KeepsMask
  infer_instance

variable {c : TcpConnection}

/-! ## The read cursor -/

theorem intReadptr_step (h : c.writeBuffer.IntReadptr) (l : Label) :
    (c.step l).writeBuffer.IntReadptr := by
  rcases c.step_writeBuffer l with ⟨r, _, hstep⟩ | hstep
  · rw [hstep]
    cases r with
    | ok n => exact Buffer.intReadptr_writeFd _ n
    | error e => exact h
  · rw [hstep]
    cases c.writeCall l with
    | none => exact h
    | some w => exact WriteCall.intReadptr_run h w

theorem intReadptr_run (loop : LoopId) (fd size : Nat) (callback : Bool) (ls : List Label)
    (hlegal : connection.Legal (new loop fd size callback true) ls) :
    (connection.run (new loop fd size callback true) ls).writeBuffer.IntReadptr :=
  connection.run_invariant (I := fun c => c.writeBuffer.IntReadptr)
    (Buffer.intReadptr_new size) (fun _ l h _ => intReadptr_step h l) ls hlegal

/-! ## The parts of a step -/

theorem polled_new (loop : LoopId) (fd size : Nat) (callback : Bool) :
    (new loop fd size callback true).Polled := by
  intro _
  have hempty : (new loop fd size callback true).writeBuffer.empty = true := rfl
  have hevents : ¬(new loop fd size callback true).channel.WantsWrite := by
    simp [Channel.WantsWrite, new]
  refine ⟨(Channel.new_interest loop).trans (by simp [new]), iff_of_false ?_ hevents⟩
  rw [hempty]
  decide

theorem polled_of_disconnected (hs : c.status = .kDisConnected) : c.Polled :=
  fun hopen => absurd hs hopen

/-- Asking for the write event, with data in the buffer. -/
theorem Polled.setWrite (howner : c.channel.owner.isSome)
    (hfull : c.writeBuffer.empty = false) :
    (c.setActive (c.channel.events ||| Channel.kWrite) .success).Polled := by
  intro _
  refine ⟨?_, iff_of_true hfull ?_⟩
  · rw [setActive_channel, Channel.setActive_events]
    exact Channel.setActive_interest howner _
  · unfold Channel.WantsWrite
    rw [setActive_channel, Channel.setActive_events]
    exact Channel.or_kWrite _

/-- Asking for it no longer, with an empty buffer. -/
theorem Polled.unsetWrite
    (hregistered : c.status ≠ .kDisConnected →
      c.channel.owner.isSome ∧ c.channel.interest = some c.channel.events)
    (hempty : c.writeBuffer.empty = true) : (c.unsetWrite .success).Polled := by
  have hne : ¬c.writeBuffer.empty = false := by
    rw [hempty]
    decide
  unfold TcpConnection.unsetWrite
  split
  · rename_i hwants
    intro hs
    refine ⟨?_, iff_of_false hne ?_⟩
    · rw [setActive_channel, Channel.setActive_events]
      exact Channel.setActive_interest (hregistered hs).1 _
    · unfold Channel.WantsWrite
      rw [setActive_channel, Channel.setActive_events, Channel.xor_kWrite hwants]
      decide
  · rename_i hwants
    exact fun hs => ⟨(hregistered hs).2, iff_of_false hne hwants⟩

theorem Polled.flushed
    (hregistered : c.status ≠ .kDisConnected →
      c.channel.owner.isSome ∧ c.channel.interest = some c.channel.events)
    (hempty : c.writeBuffer.empty = true) : (c.flushed .success).Polled := by
  by_cases hs : c.status = .kDisConnecting
  · apply polled_of_disconnected
    unfold TcpConnection.flushed
    dsimp only
    rw [if_pos (by rw [unsetWrite_status, hs])]
    simp
  · rw [flushed_of_ne hs]
    exact .unsetWrite hregistered hempty

theorem Polled.closeInThread (h : c.Polled) (hsound : c.Sound) :
    (c.closeInThread .success).Polled := by
  by_cases hs : c.status = .kDisConnected
  · unfold TcpConnection.closeInThread
    rwa [if_pos hs]
  obtain ⟨howner, _⟩ := hsound.connected hs
  unfold TcpConnection.closeInThread
  rw [if_neg hs]
  split
  · exact polled_of_disconnected rfl
  · rename_i hfull
    exact .setWrite (c := c.setStatus .kDisConnecting) howner (Bool.eq_false_iff.2 hfull)

theorem Polled.requestClose (h : c.Polled) : c.requestClose.Polled := fun hs => h hs

theorem Polled.emit (h : c.Polled) (es : List Effect) : (c.emit es).Polled := fun hs => h hs

theorem Polled.close (h : c.Polled) (hsound : c.Sound) : (c.close .success).Polled := by
  unfold TcpConnection.close
  split
  · exact h
  · dsimp only
    split
    · exact h.requestClose
    · exact h.requestClose.closeInThread hsound.requestClose

theorem Polled.activateInThread (h : c.Polled) (hsound : c.Sound)
    (hempty : c.status = .kConnecting → c.writeBuffer.empty = true) :
    (c.activateInThread .success).Polled := by
  unfold TcpConnection.activateInThread
  split
  · exact h
  rename_i hs
  have hconnecting := not_not.1 hs
  obtain ⟨howner, _⟩ := hsound.connected (ne_disconnected_of_connecting hconnecting)
  intro _
  refine ⟨?_, iff_of_false ?_ ?_⟩
  · rw [setActive_channel, Channel.setActive_events]
    exact Channel.setActive_interest howner _
  · rw [setActive_writeBuffer, hempty hconnecting]
    decide
  · unfold Channel.WantsWrite
    rw [setActive_channel, Channel.setActive_events]
    decide

/-- What `WriteInThread` has done before it looks at the buffer: it has disconnected,
or the channel is as before. -/
theorem putMessage_channel (hs : c.status = .kConnecting) (message : Bytes)
    (r : SysResult Nat) (ctl : EpollCtl) :
    (c.putMessage message r ctl).status = .kDisConnected ∨
      (c.putMessage message r ctl).status = .kConnecting ∧
        (c.putMessage message r ctl).channel = c.channel := by
  unfold putMessage
  by_cases hempty : c.writeBuffer.empty = true
  · rw [if_pos hempty]
    cases r with
    | ok n =>
        dsimp only
        split
        · exact .inr ⟨hs, rfl⟩
        · exact .inr ⟨hs, rfl⟩
    | error e =>
        dsimp only
        split
        · unfold TcpConnection.closeInThread
          rw [if_neg (by rw [emit_status, hs]; decide), if_pos (by exact hempty)]
          exact .inl rfl
        · exact .inr ⟨hs, rfl⟩
  · rw [if_neg hempty]
    exact .inr ⟨hs, rfl⟩

/-- With data in the buffer the message goes behind it. -/
theorem putMessage_of_full (hfull : c.writeBuffer.empty = false) (message : Bytes)
    (r : SysResult Nat) (ctl : EpollCtl) :
    c.putMessage message r ctl = { c with writeBuffer := c.writeBuffer.writeBuffer message } := by
  unfold putMessage
  rw [hfull]
  exact if_neg Bool.false_ne_true

theorem Polled.writeInThread (h : c.Polled) (hsound : c.Sound)
    (hint : c.writeBuffer.IntReadptr) {message : Bytes} {r : SysResult Nat}
    (hwraps : ¬c.WrapsAround ⟨.writeInThread message r, .success⟩) :
    (c.writeInThread message r .success).Polled := by
  unfold TcpConnection.writeInThread
  split
  · exact h
  rename_i hne
  have hs := not_not.1 hne
  have hopen := ne_disconnected_of_connecting hs
  obtain ⟨howner, _⟩ := hsound.connected hopen
  dsimp only
  rcases putMessage_channel hs message r .success with hdisconnected | ⟨_, hchannel⟩
  · split
    · exact polled_of_disconnected hdisconnected
    · exact polled_of_disconnected hdisconnected
  · split
    · rename_i hfull
      exact .setWrite (by rw [hchannel]; exact howner) (by simpa using hfull)
    · rename_i hnow
      have hnow : (c.putMessage message r .success).writeBuffer.empty = true := by
        simpa using hnow
      -- an empty buffer cannot come from a full one but by wrapping
      have hempty : c.writeBuffer.empty = true := by
        by_contra hfull
        have hfull := Bool.eq_false_iff.2 hfull
        rw [putMessage_of_full hfull] at hnow
        exact hwraps ⟨hs, hfull, (Buffer.empty_writeBuffer_iff hint message).1 hnow⟩
      obtain ⟨hinterest, hiff⟩ := h hopen
      intro _
      rw [hchannel, ← hiff, hnow, hempty]
      exact ⟨hinterest, Iff.rfl⟩

theorem Polled.writeFd (h : c.Polled) (hsound : c.Sound) (hint : c.writeBuffer.IntReadptr)
    {r : SysResult Nat} (hpossible : WriteResult.Possible c.writeBuffer.size r) :
    (c.writeFd r .success).Polled := by
  unfold TcpConnection.writeFd
  by_cases hs : c.status = .kDisConnected
  · rwa [if_pos hs]
  rw [if_neg hs]
  obtain ⟨howner, _⟩ := hsound.connected hs
  obtain ⟨hinterest, hiff⟩ := h hs
  cases r with
  | ok n =>
      rw [flush_ok]
      dsimp only
      split
      · rename_i hempty
        exact .flushed (fun _ => ⟨howner, hinterest⟩) hempty
      · rename_i hfull
        have hbefore : c.writeBuffer.empty = false := by
          by_contra hempty
          exact hfull (Buffer.empty_writeFd hint (Bool.eq_true_of_not_eq_false hempty)
            hpossible.1)
        intro _
        exact ⟨hinterest, iff_of_true (Bool.eq_false_iff.2 hfull) (hiff.1 hbefore)⟩
  | error e =>
      have hflush : (c.flush (.error e) .success).Polled := by
        rw [flush_error]
        split
        · exact (h.emit _).close (hsound.emit (by simp))
        · exact h.emit _
      have hsound' := hsound.flush_error e .success
      dsimp only
      split
      · rename_i hempty
        refine .flushed ?_ hempty
        intro hopen
        exact ⟨(hsound'.connected hopen).1, (hflush hopen).1⟩
      · exact hflush

/-! ## Runs -/

/-- **Step lemma.** -/
theorem Polled.step (h : c.Polled) (hsound : c.Sound) (hint : c.writeBuffer.IntReadptr)
    {l : Label} (hctl : l.ctl = .success) (hpossible : c.Possible l)
    (hkeeps : c.KeepsMask l) : (c.step l).Polled := by
  obtain ⟨op, ctl⟩ := l
  obtain ⟨hmask, hwraps⟩ := hkeeps
  dsimp only at hctl
  subst hctl
  have hactivate : op = .activate ∨ op = .activateInThread →
      c.status = .kConnecting → c.writeBuffer.empty = true := by
    intro hop hs
    exact Bool.eq_true_of_not_eq_false fun hfull => hmask ⟨hop, hs, hfull⟩
  cases op with
  | activate =>
      change (c.activate .success).Polled
      rw [hsound.activate_eq]
      exact h.activateInThread hsound (hactivate (.inl rfl))
  | activateInThread => exact h.activateInThread hsound (hactivate (.inr rfl))
  | write message r =>
      change (c.write message r .success).Polled
      rw [hsound.write_eq]
      exact h.writeInThread hsound hint hwraps
  | writeInThread message r => exact h.writeInThread hsound hint hwraps
  | writeFd r => exact h.writeFd hsound hint hpossible
  | close => exact h.close hsound
  | requestClose => exact h.requestClose
  | closeInThread => exact h.closeInThread hsound

/-- An `Activate` with data in the buffer loses the interest in the write event. -/
theorem not_polled_of_overwritesMask (hsound : c.Sound) {l : Label}
    (hmask : c.OverwritesMask l) : ¬(c.step l).Polled := by
  obtain ⟨op, ctl⟩ := l
  obtain ⟨hop, hs, hfull⟩ := hmask
  have hin : c.activateInThread ctl = c.setActive (Channel.kRead ||| Channel.kClose) ctl :=
    if_neg (not_not.2 hs)
  have hstep : c.step ⟨op, ctl⟩ = c.setActive (Channel.kRead ||| Channel.kClose) ctl := by
    rcases hop with rfl | rfl
    · exact (hsound.activate_eq ctl).trans hin
    · exact hin
  rw [hstep]
  intro hpolled
  have hwants := (hpolled (ne_disconnected_of_connecting hs)).2.1 hfull
  unfold Channel.WantsWrite at hwants
  rw [setActive_channel, Channel.setActive_events] at hwants
  exact hwants (by decide)

/-- Cursors that wrap make the buffer look empty, with the write event asked for. -/
theorem not_polled_of_wraps (h : c.Polled) (hint : c.writeBuffer.IntReadptr)
    {message : Bytes} (hs : c.status = .kConnecting) (hfull : c.writeBuffer.empty = false)
    (hwraps : c.writeBuffer.Wraps message.length) (r : SysResult Nat) (ctl : EpollCtl) :
    ¬(c.writeInThread message r ctl).Polled := by
  have hopen := ne_disconnected_of_connecting hs
  have hnow := (Buffer.empty_writeBuffer_iff hint message).2 hwraps
  unfold TcpConnection.writeInThread
  rw [if_neg (not_not.2 hs), putMessage_of_full hfull]
  dsimp only
  rw [hnow, if_neg (by decide)]
  intro hpolled
  have hfull' := (hpolled hopen).2.2 ((h hopen).2.1 hfull)
  rw [hnow] at hfull'
  cases hfull'

theorem not_polled_of_wrapsAround (h : c.Polled) (hsound : c.Sound)
    (hint : c.writeBuffer.IntReadptr) {l : Label} (hwraps : c.WrapsAround l) :
    ¬(c.step l).Polled := by
  obtain ⟨op, ctl⟩ := l
  cases op with
  | write message r =>
      obtain ⟨hs, hfull, hwraps⟩ := hwraps
      change ¬(c.write message r ctl).Polled
      rw [hsound.write_eq]
      exact not_polled_of_wraps h hint hs hfull hwraps r ctl
  | writeInThread message r =>
      obtain ⟨hs, hfull, hwraps⟩ := hwraps
      exact not_polled_of_wraps h hint hs hfull hwraps r ctl
  | activate => exact hwraps.elim
  | activateInThread => exact hwraps.elim
  | writeFd r => exact hwraps.elim
  | close => exact hwraps.elim
  | requestClose => exact hwraps.elim
  | closeInThread => exact hwraps.elim

/-- **Run lemma.** -/
theorem polled_run (loop : LoopId) (fd size : Nat) (callback : Bool) (ls : List Label)
    (hlegal : connection.Legal (new loop fd size callback true) ls)
    (hctl : ∀ l ∈ ls, l.ctl = .success)
    (hkeeps : connection.Each KeepsMask (new loop fd size callback true) ls) :
    (connection.run (new loop fd size callback true) ls).Polled := by
  refine connection.run_invariant_history
    (I := fun ls c => (∀ l ∈ ls, l.ctl = .success) →
      connection.Each KeepsMask (new loop fd size callback true) ls → c.Polled)
    ?_ ?_ ls hlegal hctl hkeeps
  · intro _ _
    exact polled_new loop fd size callback
  · intro ls l hlegal ih hctl hkeeps
    have hfront := Machine.Legal.of_append _ hlegal
    obtain ⟨hkeeps, hlast⟩ := (connection.each_concat _ ls l).1 hkeeps
    have hbefore := ih (fun l hl => hctl l (List.mem_append_left _ hl)) hkeeps
    exact hbefore.step (sound_run loop fd size callback true ls hfront)
      (intReadptr_run loop fd size callback ls hfront) (hctl l (by simp))
      (Machine.Legal.enabled_at _ hlegal) hlast

/-- **When the poller knows of pending output.**  In a run with every `epoll_ctl`
succeeding, the registered events contain `kWrite` exactly while data is buffered, at
every point, if and only if no `Activate` comes with data in the buffer and no message
makes the cursors of the buffer wrap. -/
theorem pollerMask_iff (loop : LoopId) (fd size : Nat) (callback : Bool)
    (ls : List Label) (hlegal : connection.Legal (new loop fd size callback true) ls)
    (hctl : ∀ l ∈ ls, l.ctl = .success) :
    (∀ n ≤ ls.length,
        (connection.run (new loop fd size callback true) (ls.take n)).Polled) ↔
      connection.Each KeepsMask (new loop fd size callback true) ls := by
  constructor
  · intro hpolled n hn
    have hfront := Machine.Legal.take _ hlegal n
    have hsound := sound_run loop fd size callback true (ls.take n) hfront
    have hint := intReadptr_run loop fd size callback (ls.take n) hfront
    have hnow := hpolled n (Nat.le_of_lt hn)
    have hnext := hpolled (n + 1) hn
    rw [Machine.run_take_succ _ _ hn] at hnext
    constructor
    · exact fun hmask => not_polled_of_overwritesMask hsound hmask hnext
    · exact fun hwraps => not_polled_of_wrapsAround hnow hsound hint hwraps hnext
  · intro hkeeps n _
    exact polled_run loop fd size callback (ls.take n) (Machine.Legal.take _ hlegal n)
      (fun l hl => hctl l (List.mem_of_mem_take hl)) (Machine.Each.take _ hkeeps n)

end TcpConnection

/-! ## A reply that stops halfway -/

/-- A message is written before `Activate` and the socket is full: the connection
ends up with data in the buffer and without interest in the write event. -/
theorem pollerMask_lost :
    let c := TcpConnection.new 0 5 16 true true
    let ls : List Label := [⟨.write [1] (.error .eagain), .success⟩, ⟨.activate, .success⟩]
    connection.Legal c ls ∧ (connection.run c ls).status = .kConnecting ∧
      (connection.run c ls).writeBuffer.empty = false ∧
      ¬(connection.run c ls).channel.WantsWrite ∧ ¬(connection.run c ls).Polled := by
  intro c ls
  have hs : (connection.run c ls).status = .kConnecting := by decide
  have hfull : (connection.run c ls).writeBuffer.empty = false := by decide
  have hwants : ¬(connection.run c ls).channel.WantsWrite := by decide
  refine ⟨by decide, hs, hfull, hwants, ?_⟩
  intro hpolled
  exact hwants ((hpolled (TcpConnection.ne_disconnected_of_connecting hs)).2.1 hfull)

/-- `Activate` first, then a short write: the write event is asked for. -/
theorem pollerMask_iff_activated :
    let c := TcpConnection.new 0 5 16 true true
    let ls : List Label := [⟨.activate, .success⟩, ⟨.write [1, 2] (.ok 1), .success⟩]
    (connection.run c ls).Polled := by
  intro c ls
  exact (TcpConnection.pollerMask_iff 0 5 16 true ls (by decide) (by decide)).2 (by decide) 2
    (by decide)

end Adachi.Network
