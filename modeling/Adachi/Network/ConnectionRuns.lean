import Adachi.Network.TcpConnection

/-!
# Runs of a connection

A connection as a machine: each step is one call, with whatever the system calls
in it return.  Calls that another thread makes appear as the task they submit to
the loop, and `requestClose` as the part of `Close` that runs at once.

`Sound` is the invariant of all runs: until it is disconnected the connection is
in its loop with an open descriptor, it waits in `kDisConnecting` only for data to
be sent, and in `kDisConnected` everything has been torn down.
-/

namespace Adachi.Network

open Adachi.Io

/-! ## The machine -/

inductive Op where
  | activate
  | activateInThread
  | write (message : Bytes) (r : SysResult Nat)
  | writeInThread (message : Bytes) (r : SysResult Nat)
  | writeFd (r : SysResult Nat)
  | close
  | requestClose
  | closeInThread
  deriving DecidableEq, Repr

/-- A call, and how its `epoll_ctl` calls end. -/
structure Label where
  op : Op
  ctl : EpollCtl
  deriving DecidableEq, Repr

def TcpConnection.step (c : TcpConnection) (l : Label) : TcpConnection :=
  match l.op with
  | .activate => c.activate l.ctl
  | .activateInThread => c.activateInThread l.ctl
  | .write message r => c.write message r l.ctl
  | .writeInThread message r => c.writeInThread message r l.ctl
  | .writeFd r => c.writeFd r l.ctl
  | .close => c.close l.ctl
  | .requestClose => c.requestClose
  | .closeInThread => c.closeInThread l.ctl

/-- What the kernel can do: `write(2)` takes no more than it is offered. -/
def TcpConnection.Possible (c : TcpConnection) (l : Label) : Prop :=
  match l.op with
  | .write message r => WriteResult.Possible message.length r
  | .writeInThread message r => WriteResult.Possible message.length r
  | .writeFd r => WriteResult.Possible c.writeBuffer.size r
  | _ => True

instance (c : TcpConnection) (l : Label) : Decidable (c.Possible l) := by
  unfold TcpConnection.Possible
  split <;> infer_instance

def connection : Machine TcpConnection Label where
  next := TcpConnection.step
  enabled := TcpConnection.Possible

instance (c : TcpConnection) (l : Label) : Decidable (connection.enabled c l) :=
  inferInstanceAs (Decidable (c.Possible l))

namespace TcpConnection

/-- The step makes a `write(2)` call that fails with an error not worth a retry. -/
def FatalWrite (c : TcpConnection) (l : Label) : Prop :=
  match l.op with
  | .write _ (.error e) =>
      c.channel.owner ≠ none ∧ c.status = .kConnecting ∧ c.writeBuffer.empty = true ∧
        e.retryable = false
  | .writeInThread _ (.error e) =>
      c.status = .kConnecting ∧ c.writeBuffer.empty = true ∧ e.retryable = false
  | .writeFd (.error e) => c.status ≠ .kDisConnected ∧ e.retryable = false
  | _ => False

instance (c : TcpConnection) (l : Label) : Decidable (c.FatalWrite l) := by
  unfold FatalWrite
  split <;> infer_instance

/-! ## The invariant of all runs -/

/-- Disconnected, out of the loop, the descriptor closed, the owner told. -/
structure TornDown (c : TcpConnection) : Prop where
  status : c.status = .kDisConnected
  owner : c.channel.owner = none
  removed : .removed ∈ c.effects
  fd : c.socket.fd = -1
  closed : .closed ∈ c.effects
  closeCallback : c.closeCallback = true → .closeCallback ∈ c.effects

structure Sound (c : TcpConnection) : Prop where
  connected : c.status ≠ .kDisConnected → c.channel.owner.isSome ∧ 0 ≤ c.socket.fd
  unclosed : c.status ≠ .kDisConnected → .closed ∉ c.effects
  disconnecting : c.status = .kDisConnecting → c.writeBuffer.empty = false
  disconnected : c.status = .kDisConnected → c.TornDown

variable {c : TcpConnection}

theorem ne_disconnected_of_connecting (hs : c.status = .kConnecting) :
    c.status ≠ .kDisConnected := by
  rw [hs]
  decide

/-- A connection that has left its loop is disconnected. -/
theorem Sound.disconnected_of_owner (h : c.Sound) (howner : c.channel.owner = none) :
    c.status = .kDisConnected := by
  by_contra hs
  obtain ⟨hsome, _⟩ := h.connected hs
  rw [howner] at hsome
  cases hsome

/-- So `Activate` and `Write` need not look at the owner. -/
theorem Sound.activate_eq (h : c.Sound) (ctl : EpollCtl) :
    c.activate ctl = c.activateInThread ctl := by
  unfold activate
  split
  · rename_i howner
    unfold activateInThread
    rw [h.disconnected_of_owner howner, if_pos (by decide)]
  · rfl

theorem Sound.write_eq (h : c.Sound) (message : Bytes) (r : SysResult Nat)
    (ctl : EpollCtl) : c.write message r ctl = c.writeInThread message r ctl := by
  unfold write
  split
  · rename_i howner
    unfold writeInThread
    rw [h.disconnected_of_owner howner, if_pos (by decide)]
  · rfl

theorem sound_new (loop : LoopId) (fd size : Nat) (callback added : Bool) :
    (new loop fd size callback added).Sound where
  connected _ := ⟨by simp [new], Int.natCast_nonneg fd⟩
  unclosed _ := List.not_mem_nil
  disconnecting h := by cases h
  disconnected h := by cases h

theorem Sound.setActive (h : c.Sound) (events : Events) (ctl : EpollCtl) :
    (c.setActive events ctl).Sound where
  connected hs := by
    rw [setActive_channel, Channel.setActive_owner]
    exact h.connected hs
  unclosed hs := h.unclosed hs
  disconnecting hs := h.disconnecting hs
  disconnected hs := by
    obtain ⟨status, owner, removed, fd, closed, callback⟩ := h.disconnected hs
    refine ⟨status, ?_, removed, fd, closed, callback⟩
    rw [setActive_channel, Channel.setActive_owner, owner]

theorem Sound.requestClose (h : c.Sound) : c.requestClose.Sound where
  connected hs := h.connected hs
  unclosed hs := h.unclosed hs
  disconnecting hs := h.disconnecting hs
  disconnected hs := by
    obtain ⟨status, owner, removed, fd, closed, callback⟩ := h.disconnected hs
    exact ⟨status, owner, removed, fd, closed, callback⟩

theorem Sound.emit (h : c.Sound) {es : List Effect} (hes : .closed ∉ es) :
    (c.emit es).Sound where
  connected hs := h.connected hs
  unclosed hs := by
    rw [emit_effects, List.mem_append, not_or]
    exact ⟨h.unclosed hs, hes⟩
  disconnecting hs := h.disconnecting hs
  disconnected hs := by
    obtain ⟨status, owner, removed, fd, closed, callback⟩ := h.disconnected hs
    refine ⟨status, owner, ?_, fd, ?_, ?_⟩
    · exact List.mem_append_left _ removed
    · exact List.mem_append_left _ closed
    · exact fun hc => List.mem_append_left _ (callback hc)

/-- Both ways of disconnecting tear everything down. -/
theorem TornDown.sound (h : c.TornDown) : c.Sound where
  connected hs := absurd h.status hs
  unclosed hs := absurd h.status hs
  disconnecting hs := by
    rw [h.status] at hs
    cases hs
  disconnected _ := h

theorem closeInThread_tornDown (howner : c.channel.owner.isSome) (hfd : 0 ≤ c.socket.fd)
    (hs : c.status ≠ .kDisConnected) (hempty : c.writeBuffer.empty = true) (ctl : EpollCtl) :
    (c.closeInThread ctl).TornDown := by
  unfold TcpConnection.closeInThread
  rw [if_neg hs, if_pos hempty]
  constructor <;> simp +contextual [howner, hfd]

theorem flushed_tornDown (howner : c.channel.owner.isSome) (hfd : 0 ≤ c.socket.fd)
    (hs : c.status = .kDisConnecting) (ctl : EpollCtl) : (c.flushed ctl).TornDown := by
  unfold TcpConnection.flushed
  dsimp only
  rw [if_pos (by rw [unsetWrite_status, hs])]
  constructor <;> simp +contextual [howner, hfd]

/-- What is seen of a disconnection, in the order of `CloseInThread`. -/
theorem closeInThread_effects (howner : c.channel.owner.isSome) (hfd : 0 ≤ c.socket.fd)
    (hs : c.status ≠ .kDisConnected) (hempty : c.writeBuffer.empty = true) (ctl : EpollCtl) :
    (c.closeInThread ctl).effects = c.effects ++
      ([.removed, .closed] ++ if c.closeCallback then [.closeCallback] else []) := by
  unfold TcpConnection.closeInThread
  rw [if_neg hs, if_pos hempty]
  simp [howner, hfd]

/-- What is seen of a disconnection, in the order of `WriteFd`. -/
theorem flushed_effects (howner : c.channel.owner.isSome) (hfd : 0 ≤ c.socket.fd)
    (hs : c.status = .kDisConnecting) (ctl : EpollCtl) :
    (c.flushed ctl).effects = c.effects ++
      ((if c.closeCallback then [.closeCallback] else []) ++ [.removed, .closed]) := by
  unfold TcpConnection.flushed
  dsimp only
  rw [if_pos (by rw [unsetWrite_status, hs])]
  simp [howner, hfd]

theorem flushed_of_ne (hs : c.status ≠ .kDisConnecting) (ctl : EpollCtl) :
    c.flushed ctl = c.unsetWrite ctl := by
  unfold TcpConnection.flushed
  dsimp only
  rw [if_neg (by rwa [unsetWrite_status])]

/-- While it is connecting, nothing is asked of the buffer. -/
theorem sound_of_connecting (howner : c.channel.owner.isSome) (hfd : 0 ≤ c.socket.fd)
    (hunclosed : .closed ∉ c.effects) (hs : c.status = .kConnecting) : c.Sound where
  connected _ := ⟨howner, hfd⟩
  unclosed _ := hunclosed
  disconnecting h := by
    rw [hs] at h
    cases h
  disconnected h := by
    rw [hs] at h
    cases h

theorem Sound.closeInThread (h : c.Sound) (ctl : EpollCtl) :
    (c.closeInThread ctl).Sound := by
  by_cases hs : c.status = .kDisConnected
  · unfold TcpConnection.closeInThread
    rwa [if_pos hs]
  obtain ⟨howner, hfd⟩ := h.connected hs
  by_cases hempty : c.writeBuffer.empty = true
  · exact (closeInThread_tornDown howner hfd hs hempty ctl).sound
  · unfold TcpConnection.closeInThread
    rw [if_neg hs, if_neg hempty]
    refine Sound.setActive ?_ _ _
    exact ⟨fun _ => ⟨howner, hfd⟩, fun _ => h.unclosed hs,
      fun _ => Bool.eq_false_iff.2 hempty, nofun⟩

theorem Sound.close (h : c.Sound) (ctl : EpollCtl) : (c.close ctl).Sound := by
  unfold TcpConnection.close
  split
  · exact h
  · dsimp only
    split
    · exact h.requestClose
    · exact h.requestClose.closeInThread ctl

theorem Sound.activateInThread (h : c.Sound) (ctl : EpollCtl) :
    (c.activateInThread ctl).Sound := by
  unfold TcpConnection.activateInThread
  split
  · exact h
  · exact h.setActive _ _

theorem Sound.putMessage (h : c.Sound) (hs : c.status = .kConnecting) (message : Bytes)
    (r : SysResult Nat) (ctl : EpollCtl) : (c.putMessage message r ctl).Sound := by
  have hopen := ne_disconnected_of_connecting hs
  obtain ⟨howner, hfd⟩ := h.connected hopen
  have hunclosed := h.unclosed hopen
  unfold TcpConnection.putMessage
  split
  · cases r with
    | ok n =>
        have hsent : (c.emit [.sent (message.take n)]).Sound := h.emit (by simp)
        dsimp only
        split
        · exact sound_of_connecting howner hfd (hsent.unclosed hopen) hs
        · exact hsent
    | error e =>
        have hfailed : (c.emit [.writeFailed e]).Sound := h.emit (by simp)
        dsimp only
        split
        · exact hfailed.closeInThread ctl
        · exact sound_of_connecting howner hfd (hfailed.unclosed hopen) hs
  · exact sound_of_connecting howner hfd hunclosed hs

theorem Sound.writeInThread (h : c.Sound) (message : Bytes) (r : SysResult Nat)
    (ctl : EpollCtl) : (c.writeInThread message r ctl).Sound := by
  unfold TcpConnection.writeInThread
  split
  · exact h
  · rename_i hs
    have hput := h.putMessage (not_not.1 hs) message r ctl
    dsimp only
    split
    · exact hput.setActive _ _
    · exact hput

theorem Sound.unsetWrite (h : c.Sound) (ctl : EpollCtl) : (c.unsetWrite ctl).Sound := by
  unfold TcpConnection.unsetWrite
  split
  · exact h.setActive _ _
  · exact h

theorem Sound.flush_error (h : c.Sound) (e : Errno) (ctl : EpollCtl) :
    (c.flush (.error e) ctl).Sound := by
  have hfailed : (c.emit [.writeFailed e]).Sound := h.emit (by simp)
  rw [TcpConnection.flush_error]
  split
  · exact hfailed.close ctl
  · exact hfailed

/-- After a failed write, an empty buffer is not waited for. -/
theorem Sound.flush_error_status (h : c.Sound) (e : Errno) (ctl : EpollCtl)
    (hempty : (c.flush (.error e) ctl).writeBuffer.empty = true) :
    (c.flush (.error e) ctl).status ≠ .kDisConnecting := by
  intro hs
  have hfull := (h.flush_error e ctl).disconnecting hs
  rw [hempty] at hfull
  cases hfull

theorem Sound.writeFd (h : c.Sound) (r : SysResult Nat) (ctl : EpollCtl) :
    (c.writeFd r ctl).Sound := by
  unfold TcpConnection.writeFd
  split
  · exact h
  rename_i hs
  obtain ⟨howner, hfd⟩ := h.connected hs
  cases r with
  | ok n =>
      have hsent : (c.emit [.sent (c.writeBuffer.cReadData.take n)]).Sound :=
        h.emit (by simp)
      rw [flush_ok]
      dsimp only
      split
      · by_cases hclosing : c.status = .kDisConnecting
        · exact (flushed_tornDown (by exact howner) (by exact hfd) (by exact hclosing) ctl).sound
        · rw [flushed_of_ne (by exact hclosing)]
          have hconnecting : c.status = .kConnecting := by
            cases hstatus : c.status with
            | kConnecting => rfl
            | kDisConnecting => exact absurd hstatus hclosing
            | kDisConnected => exact absurd hstatus hs
          apply Sound.unsetWrite
          exact sound_of_connecting howner hfd (hsent.unclosed hs) hconnecting
      · rename_i hfull
        exact ⟨fun _ => ⟨howner, hfd⟩, fun _ => hsent.unclosed hs,
          fun _ => Bool.eq_false_iff.2 hfull, fun hdisconnected => absurd hdisconnected hs⟩
  | error e =>
      have hflush := h.flush_error e ctl
      dsimp only
      split
      · rename_i hempty
        rw [flushed_of_ne (h.flush_error_status e ctl hempty)]
        exact hflush.unsetWrite ctl
      · exact hflush

/-- **Step lemma.** -/
theorem Sound.step (h : c.Sound) (l : Label) : (c.step l).Sound := by
  obtain ⟨op, ctl⟩ := l
  cases op with
  | activate =>
      change (c.activate ctl).Sound
      rw [h.activate_eq]
      exact h.activateInThread ctl
  | activateInThread => exact h.activateInThread ctl
  | write message r =>
      change (c.write message r ctl).Sound
      rw [h.write_eq]
      exact h.writeInThread message r ctl
  | writeInThread message r => exact h.writeInThread message r ctl
  | writeFd r => exact h.writeFd r ctl
  | close => exact h.close ctl
  | requestClose => exact h.requestClose
  | closeInThread => exact h.closeInThread ctl

/-- **Run lemma**: every run of a new connection is sound. -/
theorem sound_run (loop : LoopId) (fd size : Nat) (callback added : Bool) (ls : List Label)
    (hlegal : connection.Legal (new loop fd size callback added) ls) :
    (connection.run (new loop fd size callback added) ls).Sound :=
  connection.run_invariant (sound_new loop fd size callback added)
    (fun _ l h _ => h.step l) ls hlegal

/-! ## The close callback stays set -/

section CloseCallback

variable (c : TcpConnection) (ctl : EpollCtl)

@[simp] theorem closeInThread_closeCallback :
    (c.closeInThread ctl).closeCallback = c.closeCallback := by
  unfold closeInThread
  split
  · rfl
  · split
    · rfl
    · rfl

@[simp] theorem close_closeCallback : (c.close ctl).closeCallback = c.closeCallback := by
  unfold close
  split
  · rfl
  · dsimp only
    split
    · rfl
    · exact closeInThread_closeCallback ..

@[simp] theorem activateInThread_closeCallback :
    (c.activateInThread ctl).closeCallback = c.closeCallback := by
  unfold activateInThread
  split
  · rfl
  · rfl

@[simp] theorem putMessage_closeCallback (message : Bytes) (r : SysResult Nat) :
    (c.putMessage message r ctl).closeCallback = c.closeCallback := by
  unfold putMessage
  split
  · cases r with
    | ok n =>
        dsimp only
        split
        · rfl
        · rfl
    | error e =>
        dsimp only
        split
        · exact closeInThread_closeCallback ..
        · rfl
  · rfl

@[simp] theorem writeInThread_closeCallback (message : Bytes) (r : SysResult Nat) :
    (c.writeInThread message r ctl).closeCallback = c.closeCallback := by
  unfold writeInThread
  split
  · rfl
  · dsimp only
    split
    · exact putMessage_closeCallback ..
    · exact putMessage_closeCallback ..

@[simp] theorem flush_closeCallback (r : SysResult Nat) :
    (c.flush r ctl).closeCallback = c.closeCallback := by
  cases r with
  | ok n => rfl
  | error e =>
      rw [flush_error]
      split
      · exact close_closeCallback ..
      · rfl

@[simp] theorem flushed_closeCallback : (c.flushed ctl).closeCallback = c.closeCallback := by
  unfold flushed
  dsimp only
  split
  · exact unsetWrite_closeCallback c ctl
  · exact unsetWrite_closeCallback c ctl

theorem step_closeCallback (l : Label) : (c.step l).closeCallback = c.closeCallback := by
  rcases l with ⟨op, ctl⟩
  cases op with
  | activate =>
      change (c.activate ctl).closeCallback = _
      unfold activate
      split
      · rfl
      · exact activateInThread_closeCallback ..
  | activateInThread => exact activateInThread_closeCallback ..
  | write message r =>
      change (c.write message r ctl).closeCallback = _
      unfold write
      split
      · rfl
      · exact writeInThread_closeCallback ..
  | writeInThread message r => exact writeInThread_closeCallback ..
  | writeFd r =>
      change (c.writeFd r ctl).closeCallback = _
      unfold writeFd
      split
      · rfl
      · dsimp only
        split
        · rw [flushed_closeCallback, flush_closeCallback]
        · exact flush_closeCallback ..
  | close => exact close_closeCallback ..
  | requestClose => rfl
  | closeInThread => exact closeInThread_closeCallback ..

end CloseCallback

/-! ## Disconnected for good -/

/-- Once disconnected, a connection only notes that a close is requested. -/
theorem step_disconnected (hs : c.status = .kDisConnected) (l : Label) :
    ∃ closeRequested, c.step l = { c with closeRequested := closeRequested } := by
  have hconnecting : c.status ≠ .kConnecting := by
    rw [hs]
    decide
  obtain ⟨op, ctl⟩ := l
  cases op with
  | activate =>
      refine ⟨c.closeRequested, ?_⟩
      change c.activate ctl = c
      unfold activate activateInThread
      rw [if_pos hconnecting, ite_self]
  | activateInThread => exact ⟨c.closeRequested, if_pos hconnecting⟩
  | write message r =>
      refine ⟨c.closeRequested, ?_⟩
      change c.write message r ctl = c
      unfold write writeInThread
      rw [if_pos hconnecting, ite_self]
  | writeInThread message r => exact ⟨c.closeRequested, if_pos hconnecting⟩
  | writeFd r => exact ⟨c.closeRequested, if_pos hs⟩
  | close =>
      change ∃ closeRequested, c.close ctl = _
      unfold close closeInThread
      dsimp only
      rw [if_pos hs, ite_self]
      split
      · exact ⟨c.closeRequested, rfl⟩
      · exact ⟨true, rfl⟩
  | requestClose => exact ⟨true, rfl⟩
  | closeInThread => exact ⟨c.closeRequested, if_pos hs⟩

theorem run_disconnected (hs : c.status = .kDisConnected) (ls : List Label) :
    (connection.run c ls).status = .kDisConnected := by
  induction ls generalizing c with
  | nil => exact hs
  | cons l ls ih =>
      obtain ⟨closeRequested, hstep⟩ := step_disconnected hs l
      rw [Machine.run_cons]
      apply ih
      change (c.step l).status = _
      rw [hstep]
      exact hs

end TcpConnection

end Adachi.Network
