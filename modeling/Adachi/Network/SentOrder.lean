import Adachi.Network.Delivery
import Adachi.Network.Dispatch
import Adachi.Network.Teardown
import Adachi.Network.WriteCursor

/-!
# What has been sent, whatever fails

`Delivered` is about runs in which every write can be tried again.  A write that fails for
good loses the message of a `WriteInThread` call, but only then, and the connection is torn
down with it: what `write(2)` has taken is still the beginning of what was accepted.

## Main results

* `sent_in_order`: in every run with room in the write buffer, what has been sent is the
  beginning of what was accepted, and until the connection is disconnected the rest is buffered.
-/

namespace Adachi.Network

open Adachi.Io

namespace TcpConnection

variable {c c' : TcpConnection} {accepted : Bytes}

/-! ## Effects that send nothing -/

theorem sentBytes_teardowns {closeCallback : Bool} {last : List Effect}
    (h : last ∈ teardowns closeCallback) : sentBytes last = [] ∧ sentBeforeClose last = [] := by
  cases closeCallback with
  | true =>
      rcases List.mem_cons.1 h with rfl | h
      · exact ⟨rfl, rfl⟩
      · rw [List.mem_singleton.1 h]
        exact ⟨rfl, rfl⟩
  | false =>
      rcases List.mem_cons.1 h with rfl | h
      · exact ⟨rfl, rfl⟩
      · rw [List.mem_singleton.1 h]
        exact ⟨rfl, rfl⟩

theorem closed_notMem_writes {writes : List Effect} (h : ∀ e ∈ writes, e.isWrite) :
    .closed ∉ writes := by
  intro hmem
  exact absurd (h _ hmem) (by decide)

/-- A step of an open connection sends before it closes. -/
theorem Advances.before (h : c.Advances c') (hunclosed : .closed ∉ c.effects) :
    sentBeforeClose c'.effects = sentBytes c'.effects ∧
      sentBytes c.effects <+: sentBytes c'.effects := by
  obtain ⟨writes, last, hwrites, heffects, hopen, hclosed⟩ := h.effects
  have hlast : sentBytes last = [] ∧ sentBeforeClose last = [] := by
    by_cases hs : c'.status = .kDisConnected
    · exact sentBytes_teardowns (hclosed hs)
    · rw [hopen hs]
      exact ⟨rfl, rfl⟩
  rw [heffects, sentBeforeClose_append hunclosed,
    sentBeforeClose_append (closed_notMem_writes hwrites), sentBytes_append, sentBytes_append,
    hlast.1, hlast.2]
  exact ⟨rfl, List.prefix_append ..⟩

@[simp] theorem sentBytes_closeInThread (c : TcpConnection) (ctl : EpollCtl) :
    sentBytes (c.closeInThread ctl).effects = sentBytes c.effects := by
  unfold closeInThread
  split
  · rfl
  · split
    · simp only [runCloseCallback_effects, closeSocket_effects, removeFromLoop_effects,
        setStatus_effects, sentBytes_append]
      split <;> split <;> split <;> simp [sentBytes]
    · rfl

theorem sentBytes_close (c : TcpConnection) (ctl : EpollCtl) :
    sentBytes (c.close ctl).effects = sentBytes c.effects := by
  unfold close
  split
  · rfl
  · dsimp only
    split
    · rfl
    · exact sentBytes_closeInThread ..

/-! ## The invariant -/

/-- What has been sent is the beginning of what was accepted, the rest is buffered while the
connection is open, and nothing was sent after the descriptor was closed. -/
structure Ordered (accepted : Bytes) (c : TcpConnection) : Prop where
  fits : c.writeBuffer.Fits
  sent : sentBytes c.effects <+: accepted
  queue : c.status ≠ .kDisConnected →
    sentBytes c.effects ++ c.writeBuffer.unread = accepted
  before : sentBeforeClose c.effects = sentBytes c.effects

theorem Delivered.ordered (h : c.Delivered accepted) : c.Ordered accepted where
  fits := h.fits
  sent := ⟨_, h.queue⟩
  queue _ := h.queue
  before := h.before

theorem Ordered.delivered (h : c.Ordered accepted) (hs : c.status ≠ .kDisConnected) :
    c.Delivered accepted where
  fits := h.fits
  queue := h.queue hs
  drained hs' := absurd hs' hs
  before := h.before

/-! ## Room for a message -/

/-- There is room for what the step adds to the write buffer, and `unsigned int` counts it. -/
structure HasRoom (c : TcpConnection) (l : Label) : Prop where
  roomy : c.Roomy l
  short : (c.accepts l).length < 2 ^ 32

instance (c : TcpConnection) (l : Label) : Decidable (c.HasRoom l) :=
  let _ : Decidable (c.Roomy l) := inferInstanceAs
    (Decidable (∀ w ∈ c.writeCall l, c.writeBuffer.size + w.bytes.length < 2 ^ 31))
  decidable_of_iff (c.Roomy l ∧ (c.accepts l).length < 2 ^ 32)
    ⟨fun h => ⟨h.1, h.2⟩, fun h => ⟨h.roomy, h.short⟩⟩

/-- What `write(2)` takes of a message that `WriteInThread` is given. -/
def directly (c : TcpConnection) (message : Bytes) (r : SysResult Nat) : Bytes :=
  if c.writeBuffer.empty then
    match r with
    | .ok n => message.take n
    | .error _ => []
  else []

theorem sentBytes_writeInThread (hs : c.status = .kConnecting) (message : Bytes)
    (r : SysResult Nat) (ctl : EpollCtl) :
    sentBytes (c.writeInThread message r ctl).effects =
      sentBytes c.effects ++ c.directly message r := by
  have hput : sentBytes (c.putMessage message r ctl).effects =
      sentBytes c.effects ++ c.directly message r := by
    unfold putMessage directly
    split
    · cases r with
      | ok n =>
          dsimp only
          split
          · simp [sentBytes_append, sentBytes]
          · simp [sentBytes_append, sentBytes]
      | error e =>
          dsimp only
          split
          · simp [sentBytes_append, sentBytes]
          · simp [sentBytes_append, sentBytes]
    · simp
  unfold writeInThread
  rw [if_neg (not_not.2 hs)]
  dsimp only
  split
  · exact hput
  · exact hput

/-- What `write(2)` does not take is what the `WriteBuffer` call of the step is for. -/
theorem roomy_writeInThread (hfits : c.writeBuffer.Fits) (hs : c.status = .kConnecting)
    {message : Bytes} {r : SysResult Nat} {ctl : EpollCtl}
    (hpossible : WriteResult.Possible message.length r)
    (hgentle : ¬c.FatalWrite ⟨.writeInThread message r, ctl⟩)
    (hroomy : c.Roomy ⟨.writeInThread message r, ctl⟩) (hshort : message.length < 2 ^ 32) :
    c.writeBuffer.unread.length + message.length <
      2 ^ 31 + (c.directly message r).length := by
  have hlt := Buffer.unread_length_lt hfits.toWF
  have hcall : c.writeCall ⟨.writeInThread message r, ctl⟩ = c.buffering message r :=
    if_neg (not_not.2 hs)
  unfold Roomy at hroomy
  rw [hcall, Buffer.size_eq hfits.toWF] at hroomy
  unfold buffering at hroomy
  unfold directly
  by_cases hempty : c.writeBuffer.empty = true
  · have hunread := (Buffer.empty_iff hfits.toWF).1 hempty
    rw [if_pos hempty] at hroomy ⊢
    rw [hunread] at hroomy ⊢
    cases r with
    | ok n =>
        obtain ⟨hn, _⟩ := hpossible
        dsimp only at hroomy ⊢
        rw [List.length_take]
        by_cases hrest : n ≠ message.length
        · rw [if_pos hrest] at hroomy
          have hroom := hroomy _ rfl
          rw [show (WriteCall.block (message.drop n) (message.length - n)).bytes =
            message.drop n by
              unfold WriteCall.bytes
              dsimp only
              rw [toUnsigned_of_lt (by omega), List.take_of_length_le (by simp)],
            List.length_drop] at hroom
          omega
        · rw [List.length_nil]
          omega
    | error e =>
        have he : e.retryable = true := by
          by_contra he
          exact hgentle ⟨hs, hempty, Bool.eq_false_iff.2 he⟩
        dsimp only at hroomy ⊢
        rw [he] at hroomy
        have hroom := hroomy (.string message) rfl
        rw [show (WriteCall.string message).bytes = message from rfl] at hroom
        exact Nat.lt_add_right _ hroom
  · rw [if_neg hempty] at hroomy ⊢
    have hroom := hroomy (.string message) rfl
    rw [show (WriteCall.string message).bytes = message from rfl] at hroom
    exact Nat.lt_add_right _ hroom

/-! ## Steps -/

theorem Sound.writeCall_eq (h : c.Sound) (hs : c.status ≠ .kDisConnected) (message : Bytes)
    (r : SysResult Nat) (ctl : EpollCtl) :
    c.writeCall ⟨.writeInThread message r, ctl⟩ = c.writeCall ⟨.write message r, ctl⟩ := by
  have howner := Option.isSome_iff_ne_none.1 (h.connected hs).1
  simp [writeCall, howner]

/-- With room in the buffer, `Delivered` passes to the next state. -/
theorem Delivered.room (h : c.Delivered accepted) (hsound : c.Sound)
    (hs : c.status ≠ .kDisConnected) {l : Label} (hpossible : c.Possible l)
    (hgentle : ¬c.FatalWrite l) (hroom : c.HasRoom l) :
    accepted.length + (c.accepts l).length <
      2 ^ 31 + (sentBytes (c.step l).effects).length := by
  have hlt := Buffer.unread_length_lt h.fits.toWF
  have hqueue := congrArg List.length h.queue
  rw [List.length_append] at hqueue
  have hsilent : c.accepts l = [] → accepted.length + (c.accepts l).length <
      2 ^ 31 + (sentBytes (c.step l).effects).length := by
    intro hnone
    have hfront := ((hsound.advances_step hs l).before (hsound.unclosed hs)).2.length_le
    rw [hnone, List.length_nil]
    omega
  have hwriting : ∀ message r ctl, WriteResult.Possible message.length r →
      ¬c.FatalWrite ⟨.writeInThread message r, ctl⟩ →
      c.Roomy ⟨.writeInThread message r, ctl⟩ → message.length < 2 ^ 32 →
      c.status = .kConnecting → accepted.length + message.length <
        2 ^ 31 + (sentBytes (c.writeInThread message r ctl).effects).length := by
    intro message r ctl hpossible hgentle hroomy hshort hconnecting
    have hroom := roomy_writeInThread h.fits hconnecting hpossible hgentle hroomy hshort
    rw [sentBytes_writeInThread hconnecting, List.length_append]
    omega
  obtain ⟨howner, _⟩ := hsound.connected hs
  have howner' := Option.isSome_iff_ne_none.1 howner
  obtain ⟨op, ctl⟩ := l
  cases op with
  | write message r =>
      by_cases hconnecting : c.status = .kConnecting
      · have haccepts : c.accepts ⟨.write message r, ctl⟩ = message :=
          if_pos ⟨howner', hconnecting⟩
        rw [haccepts]
        change _ < 2 ^ 31 + (sentBytes (c.write message r ctl).effects).length
        rw [hsound.write_eq]
        refine hwriting message r ctl hpossible ?_ ?_ (haccepts ▸ hroom.short) hconnecting
        · intro hfatal
          apply hgentle
          cases r with
          | ok n => exact hfatal
          | error e => exact ⟨howner', hfatal⟩
        · intro w hw
          rw [hsound.writeCall_eq hs message r ctl] at hw
          exact hroom.roomy w hw
      · exact hsilent (if_neg fun hand => hconnecting hand.2)
  | writeInThread message r =>
      by_cases hconnecting : c.status = .kConnecting
      · have haccepts : c.accepts ⟨.writeInThread message r, ctl⟩ = message :=
          if_pos hconnecting
        rw [haccepts]
        exact hwriting message r ctl hpossible hgentle hroom.roomy (haccepts ▸ hroom.short)
          hconnecting
      · exact hsilent (if_neg hconnecting)
  | activate | activateInThread | writeFd | close | requestClose | closeInThread =>
      exact hsilent rfl

/-- A write that fails for good sends nothing, and what it may lose is its own message. -/
theorem Ordered.fatal (h : c.Ordered accepted) (hsound : c.Sound)
    (hs : c.status ≠ .kDisConnected) {l : Label} (hfatal : c.FatalWrite l) :
    (c.step l).Ordered (accepted ++ c.accepts l) := by
  have hbefore := ((hsound.advances_step hs l).before (hsound.unclosed hs)).1
  have hwriting : ∀ (message : Bytes) (e : Errno) (ctl : EpollCtl), c.status = .kConnecting →
      c.writeBuffer.empty = true → e.retryable = false →
      (c.writeInThread message (.error e) ctl).status = .kDisConnected ∧
        (c.writeInThread message (.error e) ctl).writeBuffer = c.writeBuffer ∧
        sentBytes (c.writeInThread message (.error e) ctl).effects = sentBytes c.effects := by
    intro message e ctl hconnecting hempty he
    have htorn := writeInThread_fatal hsound hconnecting hempty he message ctl
    have hsent := sentBytes_writeInThread hconnecting message (.error e) ctl
    have hdirectly : c.directly message (.error e) = [] := by simp [directly]
    rw [hdirectly, List.append_nil] at hsent
    refine ⟨htorn.status, ?_, hsent⟩
    rw [writeInThread_writeBuffer]
    have hcall : c.writeCall ⟨.writeInThread message (.error e), ctl⟩ = none := by
      simp [writeCall, buffering, hconnecting, hempty, he]
    rw [hcall]
    rfl
  obtain ⟨op, ctl⟩ := l
  cases op with
  | write message r =>
      cases r with
      | ok n => exact hfatal.elim
      | error e =>
          obtain ⟨_, hconnecting, hempty, he⟩ := hfatal
          obtain ⟨hstatus, hbuffer, hsent⟩ := hwriting message e ctl hconnecting hempty he
          rw [← hsound.write_eq] at hstatus hbuffer hsent
          change (c.write message (.error e) ctl).Ordered _
          refine ⟨hbuffer ▸ h.fits, ?_, fun hopen => absurd hstatus hopen, hbefore⟩
          rw [hsent]
          exact h.sent.trans (List.prefix_append ..)
  | writeInThread message r =>
      cases r with
      | ok n => exact hfatal.elim
      | error e =>
          obtain ⟨hconnecting, hempty, he⟩ := hfatal
          obtain ⟨hstatus, hbuffer, hsent⟩ := hwriting message e ctl hconnecting hempty he
          change (c.writeInThread message (.error e) ctl).Ordered _
          refine ⟨hbuffer ▸ h.fits, ?_, fun hopen => absurd hstatus hopen, hbefore⟩
          rw [hsent]
          exact h.sent.trans (List.prefix_append ..)
  | writeFd r =>
      cases r with
      | ok n => exact hfatal.elim
      | error e =>
          have hbuffer : (c.writeFd (.error e) ctl).writeBuffer = c.writeBuffer := by
            rw [writeFd_writeBuffer, if_neg hs]
            rfl
          have hsent : sentBytes (c.writeFd (.error e) ctl).effects = sentBytes c.effects := by
            have hflush : sentBytes (c.flush (.error e) ctl).effects = sentBytes c.effects := by
              rw [flush_error]
              split
              · rw [sentBytes_close]
                simp [sentBytes_append, sentBytes]
              · simp [sentBytes_append, sentBytes]
            unfold writeFd
            rw [if_neg hs]
            dsimp only
            split
            · rename_i hempty
              rw [flushed_of_ne (hsound.flush_error_status e ctl hempty), unsetWrite_effects]
              exact hflush
            · exact hflush
          rw [show c.accepts ⟨.writeFd (.error e), ctl⟩ = [] from rfl, List.append_nil]
          change (c.writeFd (.error e) ctl).Ordered accepted
          refine ⟨hbuffer ▸ h.fits, hsent ▸ h.sent, ?_, hbefore⟩
          intro _
          rw [hbuffer, hsent]
          exact h.queue hs
  | activate | activateInThread | close | requestClose | closeInThread => exact hfatal.elim

theorem accepts_of_not_connecting (hs : c.status ≠ .kConnecting) (l : Label) :
    c.accepts l = [] := by
  obtain ⟨op, ctl⟩ := l
  cases op with
  | write message r => exact if_neg fun hand => hs hand.2
  | writeInThread message r => exact if_neg hs
  | activate | activateInThread | writeFd | close | requestClose | closeInThread => rfl

/-- **Step lemma.** -/
theorem Ordered.step (h : c.Ordered accepted) (hsound : c.Sound) {l : Label}
    (hpossible : c.Possible l) (hroom : c.HasRoom l) :
    (c.step l).Ordered (accepted ++ c.accepts l) := by
  by_cases hs : c.status = .kDisConnected
  · obtain ⟨closeRequested, hstep⟩ := step_disconnected hs l
    have hconnecting : c.status ≠ .kConnecting := by
      rw [hs]
      exact ConnectionState.noConfusion
    rw [hstep, accepts_of_not_connecting hconnecting, List.append_nil]
    exact ⟨h.fits, h.sent, h.queue, h.before⟩
  by_cases hfatal : c.FatalWrite l
  · exact h.fatal hsound hs hfatal
  · have hdelivered := h.delivered hs
    exact (hdelivered.step hsound hpossible hfatal
      (hdelivered.room hsound hs hpossible hfatal hroom)).ordered

theorem ordered_new (loop : LoopId) (fd : Nat) {size : Nat} (hsize : size < 2 ^ 31)
    (callback added : Bool) : (new loop fd size callback added).Ordered [] :=
  (delivered_new loop fd hsize callback added).ordered

/-- **Run lemma.** -/
theorem Ordered.run (h : c.Ordered accepted) (hsound : c.Sound) {ls : List Label}
    (hlegal : connection.Legal c ls) (hroom : connection.Each HasRoom c ls) :
    (connection.run c ls).Sound ∧
      (connection.run c ls).Ordered (accepted ++ connection.collect accepts c ls) := by
  induction ls generalizing c accepted with
  | nil =>
      rw [show connection.collect accepts c [] = [] from rfl, List.append_nil]
      exact ⟨hsound, h⟩
  | cons l ls ih =>
      rw [connection.each_cons] at hroom
      have hstep := h.step hsound hlegal.1 hroom.1
      obtain ⟨hsound', hrest⟩ := ih hstep (hsound.step l) hlegal.2 hroom.2
      rw [List.append_assoc] at hrest
      exact ⟨hsound', hrest⟩

/-- **What has been sent is in order, whatever fails.**  In every run of a new connection with
room for what it buffers, also when writes fail for good: the bytes that `write(2)` has taken
are the beginning of the bytes accepted, they were taken before the descriptor was closed, and
until the connection is disconnected the write buffer holds the others. -/
theorem sent_in_order (loop : LoopId) (fd : Nat) {size : Nat} (hsize : size < 2 ^ 31)
    (callback added : Bool) (ls : List Label)
    (hlegal : connection.Legal (new loop fd size callback added) ls)
    (hroom : connection.Each HasRoom (new loop fd size callback added) ls) :
    let accepted := connection.collect accepts (new loop fd size callback added) ls
    let c := connection.run (new loop fd size callback added) ls
    sentBytes c.effects <+: accepted ∧
      (c.status ≠ .kDisConnected → sentBytes c.effects ++ c.writeBuffer.unread = accepted) ∧
      sentBeforeClose c.effects = sentBytes c.effects := by
  intro accepted c
  obtain ⟨_, hordered⟩ := (ordered_new loop fd hsize callback added).run
    (sound_new loop fd size callback added) hlegal hroom
  exact ⟨hordered.sent, hordered.queue, hordered.before⟩

end TcpConnection

/-- Two bytes are sent of three; the next `WriteFd` fails for good, and so does the one after
it. -/
theorem sent_in_order_fatal :
    let c := TcpConnection.new 0 5 16 true true
    let ls : List Label :=
      [⟨.write [1, 2, 3] (.ok 2), ⟨true, true⟩⟩, ⟨.writeFd (.error epipe), ⟨true, true⟩⟩,
        ⟨.writeFd (.error epipe), ⟨true, true⟩⟩]
    sentBytes (connection.run c ls).effects <+: [1, 2, 3] := by
  intro c ls
  exact (TcpConnection.sent_in_order 0 5 (by decide) true true ls (by decide) (by decide)).1

end Adachi.Network
