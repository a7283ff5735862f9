import Adachi.Io.BufferQueue
import Adachi.Network.ConnectionRuns

/-!
# Output is delivered in order

Bytes reach the socket on two paths, directly in `WriteInThread` and from the
buffer in `WriteFd`, with any short counts.  The direct path is taken only when the
buffer is empty, so what has been sent followed by what is buffered is always
what has been accepted (`Delivered`).

## Main results

* `output_delivered`: this holds in every run without a fatal write, and whatever was
  accepted has been sent before the descriptor is closed.
-/

namespace Adachi.Network

open Adachi.Io

/-! ## What was sent -/

/-- The bytes `write(2)` has taken, in order. -/
def sentBytes : List Effect → Bytes
  | [] => []
  | .sent bytes :: es => bytes ++ sentBytes es
  | _ :: es => sentBytes es

/-- The bytes that were sent before the descriptor was closed. -/
def sentBeforeClose : List Effect → Bytes
  | [] => []
  | .closed :: _ => []
  | .sent bytes :: es => bytes ++ sentBeforeClose es
  | _ :: es => sentBeforeClose es

theorem sentBytes_append (es fs : List Effect) :
    sentBytes (es ++ fs) = sentBytes es ++ sentBytes fs := by
  induction es with
  | nil => rfl
  | cons e es ih => cases e <;> simp [sentBytes, ih]

theorem sentBeforeClose_append {es : List Effect} (h : .closed ∉ es) (fs : List Effect) :
    sentBeforeClose (es ++ fs) = sentBytes es ++ sentBeforeClose fs := by
  induction es with
  | nil => rfl
  | cons e es ih =>
      rw [List.mem_cons, not_or] at h
      cases e <;> simp_all [sentBytes, sentBeforeClose]

namespace TcpConnection

/-- The bytes a step accepts for sending: the message, if the connection takes it. -/
def accepts (c : TcpConnection) (l : Label) : Bytes :=
  match l.op with
  | .write message _ =>
      if c.channel.owner ≠ none ∧ c.status = .kConnecting then message else []
  | .writeInThread message _ => if c.status = .kConnecting then message else []
  | _ => []

/-- All accepted bytes have been sent or are still buffered, in order; once
disconnected none is buffered. -/
structure Delivered (accepted : Bytes) (c : TcpConnection) : Prop where
  fits : c.writeBuffer.Fits
  queue : sentBytes c.effects ++ c.writeBuffer.unread = accepted
  drained : c.status = .kDisConnected → c.writeBuffer.unread = []
  before : sentBeforeClose c.effects = sentBytes c.effects

variable {c c' : TcpConnection} {accepted : Bytes}

/-- What one part of a step has to show. -/
theorem Delivered.extend (h : c.Delivered accepted) (hunclosed : .closed ∉ c.effects)
    {es : List Effect} {acc : Bytes} (heffects : c'.effects = c.effects ++ es)
    (hes : sentBeforeClose es = sentBytes es) (hfits : c'.writeBuffer.Fits)
    (hqueue : sentBytes es ++ c'.writeBuffer.unread = c.writeBuffer.unread ++ acc)
    (hdrained : c'.status = .kDisConnected → c'.writeBuffer.unread = []) :
    c'.Delivered (accepted ++ acc) where
  fits := hfits
  queue := by
    rw [heffects, sentBytes_append, List.append_assoc, hqueue, ← List.append_assoc, h.queue]
  drained := hdrained
  before := by
    rw [heffects, sentBeforeClose_append hunclosed, hes, sentBytes_append]

/-- Parts of a step that send nothing. -/
theorem Delivered.congr (h : c.Delivered accepted) (hstatus : c'.status = c.status)
    (hbuffer : c'.writeBuffer = c.writeBuffer) (heffects : c'.effects = c.effects) :
    c'.Delivered accepted where
  fits := hbuffer ▸ h.fits
  queue := by rw [hbuffer, heffects, h.queue]
  drained hs := by
    rw [hbuffer]
    exact h.drained (hstatus ▸ hs)
  before := by rw [heffects, h.before]

theorem delivered_new (loop : LoopId) (fd : Nat) {size : Nat} (hsize : size < 2 ^ 31)
    (callback added : Bool) : (new loop fd size callback added).Delivered [] where
  fits := Buffer.new_fits hsize
  queue := Buffer.unread_new size
  drained _ := Buffer.unread_new size
  before := rfl

/-! ## The parts of a step -/

theorem Delivered.setActive (h : c.Delivered accepted) (events : Events) (ctl : EpollCtl) :
    (c.setActive events ctl).Delivered accepted := h.congr rfl rfl rfl

theorem Delivered.requestClose (h : c.Delivered accepted) :
    c.requestClose.Delivered accepted := h.congr rfl rfl rfl

theorem Delivered.closeInThread (h : c.Delivered accepted) (hsound : c.Sound)
    (ctl : EpollCtl) : (c.closeInThread ctl).Delivered accepted := by
  by_cases hs : c.status = .kDisConnected
  · unfold TcpConnection.closeInThread
    rwa [if_pos hs]
  by_cases hempty : c.writeBuffer.empty = true
  · obtain ⟨howner, hfd⟩ := hsound.connected hs
    have hunread := (Buffer.empty_iff h.fits.toWF).1 hempty
    have hbuffer := closeInThread_writeBuffer c ctl
    rw [← List.append_nil accepted]
    refine h.extend (hsound.unclosed hs) (closeInThread_effects howner hfd hs hempty ctl)
      ?_ ?_ ?_ ?_
    · split <;> rfl
    · rw [hbuffer]
      exact h.fits
    · rw [hbuffer, hunread]
      split <;> rfl
    · intro _
      rw [hbuffer, hunread]
  · unfold TcpConnection.closeInThread
    rw [if_neg hs, if_neg hempty]
    refine Delivered.setActive ?_ _ _
    exact ⟨h.fits, h.queue, nofun, h.before⟩

theorem Delivered.close (h : c.Delivered accepted) (hsound : c.Sound) (ctl : EpollCtl) :
    (c.close ctl).Delivered accepted := by
  unfold TcpConnection.close
  split
  · exact h
  · dsimp only
    split
    · exact h.requestClose
    · exact h.requestClose.closeInThread hsound.requestClose ctl

theorem Delivered.activateInThread (h : c.Delivered accepted) (ctl : EpollCtl) :
    (c.activateInThread ctl).Delivered accepted := by
  unfold TcpConnection.activateInThread
  split
  · exact h
  · exact h.setActive _ _

/-- With nothing buffered, what is sent has just been accepted. -/
theorem Delivered.emitSent (h : c.Delivered accepted) (hunclosed : .closed ∉ c.effects)
    (hunread : c.writeBuffer.unread = []) (bytes : Bytes) :
    (c.emit [.sent bytes]).Delivered (accepted ++ bytes) := by
  refine h.extend hunclosed (emit_effects c _) rfl h.fits ?_ h.drained
  change (bytes ++ []) ++ c.writeBuffer.unread = _
  rw [hunread, List.append_nil, List.append_nil, List.nil_append]

/-- A failed write sends nothing. -/
theorem Delivered.emitFailed (h : c.Delivered accepted) (hunclosed : .closed ∉ c.effects)
    (e : Errno) : (c.emit [.writeFailed e]).Delivered accepted := by
  rw [← List.append_nil accepted]
  refine h.extend hunclosed (emit_effects c _) rfl h.fits ?_ h.drained
  rw [List.append_nil]
  rfl

/-- What goes behind the buffered data has been accepted. -/
theorem Delivered.setBuffer (h : c.Delivered accepted) (hopen : c.status ≠ .kDisConnected)
    {b : Buffer} {rest : Bytes} (hfits : b.Fits)
    (hunread : b.unread = c.writeBuffer.unread ++ rest) :
    { c with writeBuffer := b }.Delivered (accepted ++ rest) where
  fits := hfits
  queue := by
    change sentBytes c.effects ++ b.unread = _
    rw [hunread, ← List.append_assoc, h.queue]
  drained hs := absurd hs hopen
  before := h.before

/-- `WriteInThread` takes the message, short writes and retries included. -/
theorem Delivered.putMessage (h : c.Delivered accepted) (hsound : c.Sound)
    (hs : c.status = .kConnecting) {message : Bytes} {r : SysResult Nat} (ctl : EpollCtl)
    (hpossible : WriteResult.Possible message.length r)
    (hretry : ∀ e, c.writeBuffer.empty = true → r = .error e → e.retryable = true)
    (hroom : accepted.length + message.length <
      2 ^ 31 + (sentBytes (c.putMessage message r ctl).effects).length) :
    (c.putMessage message r ctl).Delivered (accepted ++ message) := by
  have hopen := ne_disconnected_of_connecting hs
  have hunclosed := hsound.unclosed hopen
  have hlen := congrArg List.length h.queue
  rw [List.length_append] at hlen
  unfold TcpConnection.putMessage at hroom ⊢
  by_cases hempty : c.writeBuffer.empty = true
  · have hunread := (Buffer.empty_iff h.fits.toWF).1 hempty
    rw [hunread] at hlen
    rw [if_pos hempty] at hroom ⊢
    cases r with
    | ok n =>
        have hsent := h.emitSent hunclosed hunread (message.take n)
        obtain ⟨hn, _⟩ := hpossible
        dsimp only at hroom ⊢
        by_cases hshort : n ≠ message.length
        · rw [if_pos hshort] at hroom ⊢
          simp only [emit_effects, sentBytes_append, List.length_append, sentBytes,
            List.append_nil, List.length_take] at hroom
          have hpending : c.writeBuffer.unread.length + (message.drop n).length < 2 ^ 31 := by
            rw [hunread, List.length_nil, List.length_drop] at *
            omega
          obtain ⟨bfits, bunread⟩ := Buffer.writeBufferLen_spec h.fits hpending
          rw [List.length_drop] at bfits bunread
          have hboth := hsent.setBuffer hopen bfits bunread
          rwa [List.append_assoc, List.take_append_drop] at hboth
        · rw [if_neg hshort]
          rwa [not_not.1 hshort, List.take_length] at hsent ⊢
    | error e =>
        have he := hretry e hempty rfl
        dsimp only at hroom ⊢
        rw [he, if_neg (by decide)] at hroom ⊢
        simp only [emit_effects, sentBytes_append, sentBytes, List.append_nil] at hroom
        have hpending : c.writeBuffer.unread.length + message.length < 2 ^ 31 := by
          rw [hunread, List.length_nil] at *
          omega
        obtain ⟨bfits, bunread⟩ := Buffer.writeBuffer_spec h.fits hpending
        exact (h.emitFailed hunclosed e).setBuffer hopen bfits bunread
  · rw [if_neg hempty] at hroom ⊢
    dsimp only at hroom
    have hpending : c.writeBuffer.unread.length + message.length < 2 ^ 31 := by omega
    obtain ⟨bfits, bunread⟩ := Buffer.writeBuffer_spec h.fits hpending
    exact h.setBuffer hopen bfits bunread

theorem Delivered.writeInThread (h : c.Delivered accepted) (hsound : c.Sound)
    {message : Bytes} {r : SysResult Nat} (ctl : EpollCtl)
    (hpossible : WriteResult.Possible message.length r)
    (hretry : ∀ e, c.status = .kConnecting → c.writeBuffer.empty = true → r = .error e →
      e.retryable = true)
    (hroom : accepted.length + (if c.status = .kConnecting then message else []).length <
      2 ^ 31 + (sentBytes (c.writeInThread message r ctl).effects).length) :
    (c.writeInThread message r ctl).Delivered
      (accepted ++ if c.status = .kConnecting then message else []) := by
  unfold TcpConnection.writeInThread at hroom ⊢
  by_cases hs : c.status = .kConnecting
  · rw [if_pos hs, if_neg (not_not.2 hs)] at hroom
    rw [if_pos hs, if_neg (not_not.2 hs)]
    dsimp only at hroom ⊢
    have hput : (c.putMessage message r ctl).Delivered (accepted ++ message) := by
      refine h.putMessage hsound hs ctl hpossible (fun e => hretry e hs) ?_
      split at hroom
      · exact hroom
      · exact hroom
    split
    · exact hput.setActive _ _
    · exact hput
  · rw [if_neg hs, if_pos hs, List.append_nil]
    exact h

theorem Delivered.unsetWrite (h : c.Delivered accepted) (ctl : EpollCtl) :
    (c.unsetWrite ctl).Delivered accepted :=
  h.congr (unsetWrite_status c ctl) (unsetWrite_writeBuffer c ctl) (unsetWrite_effects c ctl)

/-- What `WriteFd` does with an empty buffer. -/
theorem Delivered.flushed (h : c.Delivered accepted) (howner : c.channel.owner.isSome)
    (hfd : 0 ≤ c.socket.fd) (hunclosed : .closed ∉ c.effects)
    (hempty : c.writeBuffer.empty = true) (ctl : EpollCtl) :
    (c.flushed ctl).Delivered accepted := by
  by_cases hs : c.status = .kDisConnecting
  · have hunread := (Buffer.empty_iff h.fits.toWF).1 hempty
    have hbuffer := flushed_writeBuffer c ctl
    rw [← List.append_nil accepted]
    refine h.extend hunclosed (flushed_effects howner hfd hs ctl) ?_ ?_ ?_ ?_
    · split <;> rfl
    · rw [hbuffer]
      exact h.fits
    · rw [hbuffer, hunread]
      split <;> rfl
    · intro _
      rw [hbuffer, hunread]
  · rw [flushed_of_ne hs]
    exact h.unsetWrite ctl

/-- `WriteFd` sends from the front of the buffer. -/
theorem Delivered.flush_ok (h : c.Delivered accepted) (hs : c.status ≠ .kDisConnected)
    (hunclosed : .closed ∉ c.effects) {n : Nat} (hn : n ≤ c.writeBuffer.unread.length)
    (ctl : EpollCtl) : (c.flush (.ok n) ctl).Delivered accepted := by
  obtain ⟨_, bwf, bunread, bbuffer⟩ := Buffer.writeFd_spec h.fits.toWF hn
  have hsent : c.writeBuffer.cReadData.take n = c.writeBuffer.unread.take n := by
    rw [← Buffer.cReadData_take h.fits.toWF, List.take_take, Nat.min_eq_left hn]
  rw [TcpConnection.flush_ok, hsent, ← List.append_nil accepted]
  refine h.extend hunclosed
    (show _ = c.effects ++ [.sent (c.writeBuffer.unread.take n)] from rfl) rfl
    ⟨bwf, bbuffer ▸ h.fits.capacity_lt⟩ ?_ fun hd => absurd hd hs
  change (c.writeBuffer.unread.take n ++ []) ++ (c.writeBuffer.writeFd (.ok n)).2.unread = _
  rw [bunread, List.append_nil, List.append_nil, List.take_append_drop]

theorem Delivered.writeFd (h : c.Delivered accepted) (hsound : c.Sound) {r : SysResult Nat}
    (ctl : EpollCtl) (hpossible : WriteResult.Possible c.writeBuffer.size r)
    (hretry : ∀ e, c.status ≠ .kDisConnected → r = .error e → e.retryable = true) :
    (c.writeFd r ctl).Delivered accepted := by
  unfold TcpConnection.writeFd
  by_cases hs : c.status = .kDisConnected
  · rwa [if_pos hs]
  rw [if_neg hs]
  obtain ⟨howner, hfd⟩ := hsound.connected hs
  have hunclosed := hsound.unclosed hs
  cases r with
  | ok n =>
      have hn : n ≤ c.writeBuffer.unread.length := by
        rw [← Buffer.size_eq h.fits.toWF]
        exact hpossible.1
      have hflush := h.flush_ok hs hunclosed hn ctl
      have hunclosed' : .closed ∉ (c.flush (.ok n) ctl).effects := by
        rw [TcpConnection.flush_ok]
        simpa using hunclosed
      dsimp only
      split
      · rename_i hempty
        exact hflush.flushed howner hfd hunclosed' hempty ctl
      · exact hflush
  | error e =>
      have he := hretry e hs rfl
      have hfailed := h.emitFailed hunclosed e
      have hflush : c.flush (.error e) ctl = c.emit [.writeFailed e] := by
        rw [TcpConnection.flush_error, he]
        exact if_neg (by decide)
      rw [hflush]
      dsimp only
      split
      · rename_i hempty
        exact hfailed.flushed howner hfd (by simpa using hunclosed) hempty ctl
      · exact hfailed

/-! ## Runs -/

/-- **Step lemma.** -/
theorem Delivered.step (h : c.Delivered accepted) (hsound : c.Sound) {l : Label}
    (hpossible : c.Possible l) (hgentle : ¬c.FatalWrite l)
    (hroom : accepted.length + (c.accepts l).length <
      2 ^ 31 + (sentBytes (c.step l).effects).length) :
    (c.step l).Delivered (accepted ++ c.accepts l) := by
  obtain ⟨op, ctl⟩ := l
  cases op with
  | activate =>
      rw [show c.accepts ⟨.activate, ctl⟩ = [] from rfl, List.append_nil]
      change (c.activate ctl).Delivered accepted
      rw [hsound.activate_eq]
      exact h.activateInThread ctl
  | activateInThread =>
      rw [show c.accepts ⟨.activateInThread, ctl⟩ = [] from rfl, List.append_nil]
      exact h.activateInThread ctl
  | write message r =>
      change (c.write message r ctl).Delivered _
      change _ < 2 ^ 31 + (sentBytes (c.write message r ctl).effects).length at hroom
      unfold TcpConnection.write accepts at hroom ⊢
      dsimp only at hroom ⊢
      by_cases howner : c.channel.owner = none
      · rw [if_pos howner, if_neg fun hand => hand.1 howner, List.append_nil]
        exact h
      · simp only [ne_eq, howner, not_false_eq_true, true_and, if_false] at hroom ⊢
        refine h.writeInThread hsound ctl hpossible ?_ hroom
        intro e hs hempty he
        subst he
        exact Bool.eq_true_of_not_eq_false fun hfatal => hgentle ⟨howner, hs, hempty, hfatal⟩
  | writeInThread message r =>
      refine h.writeInThread hsound ctl hpossible ?_ hroom
      intro e hs hempty he
      subst he
      exact Bool.eq_true_of_not_eq_false fun hfatal => hgentle ⟨hs, hempty, hfatal⟩
  | writeFd r =>
      rw [show c.accepts ⟨.writeFd r, ctl⟩ = [] from rfl, List.append_nil]
      refine h.writeFd hsound ctl hpossible ?_
      intro e hs he
      subst he
      exact Bool.eq_true_of_not_eq_false fun hfatal => hgentle ⟨hs, hfatal⟩
  | close =>
      rw [show c.accepts ⟨.close, ctl⟩ = [] from rfl, List.append_nil]
      exact h.close hsound ctl
  | requestClose =>
      rw [show c.accepts ⟨.requestClose, ctl⟩ = [] from rfl, List.append_nil]
      exact h.requestClose
  | closeInThread =>
      rw [show c.accepts ⟨.closeInThread, ctl⟩ = [] from rfl, List.append_nil]
      exact h.closeInThread hsound ctl

/-- No step of the run makes a write that fails for good, and at every point fewer
than `2 ^ 31` of the accepted bytes have not been sent. -/
structure Gentle (start : TcpConnection) (ls : List Label) : Prop where
  retried : connection.Each (fun c l => ¬c.FatalWrite l) start ls
  pending : ∀ n ≤ ls.length,
    (connection.collect accepts start (ls.take n)).length -
      (sentBytes (connection.run start (ls.take n)).effects).length < 2 ^ 31

theorem Gentle.concat {start : TcpConnection} {ls : List Label} {l : Label}
    (h : Gentle start (ls ++ [l])) :
    Gentle start ls ∧ ¬(connection.run start ls).FatalWrite l ∧
      (connection.collect accepts start (ls ++ [l])).length -
        (sentBytes (connection.run start (ls ++ [l])).effects).length < 2 ^ 31 := by
  obtain ⟨hbefore, hlast⟩ := (connection.each_concat start ls l).1 h.retried
  refine ⟨⟨hbefore, ?_⟩, hlast, ?_⟩
  · intro n hn
    have hpending := h.pending n (by rw [List.length_append]; omega)
    rwa [List.take_append_of_le_length hn] at hpending
  · have hpending := h.pending (ls ++ [l]).length (Nat.le_refl _)
    rwa [List.take_length] at hpending

/-- **Run lemma.** -/
theorem delivered_run (loop : LoopId) (fd : Nat) {size : Nat} (hsize : size < 2 ^ 31)
    (callback added : Bool) (ls : List Label)
    (hlegal : connection.Legal (new loop fd size callback added) ls)
    (hgentle : Gentle (new loop fd size callback added) ls) :
    (connection.run (new loop fd size callback added) ls).Delivered
      (connection.collect accepts (new loop fd size callback added) ls) := by
  generalize hstart : new loop fd size callback added = start at hlegal hgentle ⊢
  refine connection.run_invariant_history
    (I := fun ls c => Gentle start ls → c.Delivered (connection.collect accepts start ls))
    ?_ ?_ ls hlegal hgentle
  · intro _
    subst hstart
    exact delivered_new loop fd hsize callback added
  · intro ls l hlegal ih hgentle
    have hsound := hstart ▸ sound_run loop fd size callback added ls
      (hstart ▸ Machine.Legal.of_append _ hlegal)
    obtain ⟨hbefore, hretried, hroom⟩ := hgentle.concat
    rw [Machine.collect_concat] at hroom ⊢
    rw [Machine.run_concat, List.length_append] at hroom
    refine (ih hbefore).step hsound (Machine.Legal.enabled_at _ hlegal) hretried ?_
    change _ < 2 ^ 31 + (sentBytes (connection.next _ l).effects).length
    omega

/-- **Output is delivered in order, without loss or duplication**, and whatever was
accepted has been sent before the descriptor is closed. -/
theorem output_delivered (loop : LoopId) (fd : Nat) {size : Nat} (hsize : size < 2 ^ 31)
    (callback added : Bool) (ls : List Label)
    (hlegal : connection.Legal (new loop fd size callback added) ls)
    (hgentle : Gentle (new loop fd size callback added) ls) :
    let accepted := connection.collect accepts (new loop fd size callback added) ls
    let c := connection.run (new loop fd size callback added) ls
    sentBytes c.effects ++ c.writeBuffer.unread = accepted ∧
      (c.status = .kDisConnected → c.writeBuffer.unread = []) ∧
      (.closed ∈ c.effects →
        c.status = .kDisConnected ∧ sentBeforeClose c.effects = accepted) := by
  intro accepted c
  have hsound : c.Sound := sound_run loop fd size callback added ls hlegal
  have hdelivered : c.Delivered accepted :=
    delivered_run loop fd hsize callback added ls hlegal hgentle
  refine ⟨hdelivered.queue, hdelivered.drained, ?_⟩
  intro hclosed
  have hs : c.status = .kDisConnected := by
    by_contra hs
    exact hsound.unclosed hs hclosed
  refine ⟨hs, ?_⟩
  rw [hdelivered.before, ← hdelivered.queue, hdelivered.drained hs, List.append_nil]

end TcpConnection

/-- Three bytes are written, one is taken, the connection is asked to close, and the
rest is flushed in two writes. -/
theorem output_delivered_flush :
    let c := TcpConnection.new 0 5 16 true true
    let ls : List Label :=
      [⟨.writeInThread [1, 2, 3] (.ok 1), ⟨true, true⟩⟩, ⟨.closeInThread, ⟨true, true⟩⟩,
        ⟨.writeFd (.ok 1), ⟨true, true⟩⟩, ⟨.writeFd (.ok 1), ⟨true, true⟩⟩]
    (connection.run c ls).status = .kDisConnected ∧
      sentBeforeClose (connection.run c ls).effects = [1, 2, 3] := by
  intro c ls
  have hgentle : TcpConnection.Gentle c ls := ⟨by decide, by decide⟩
  exact (TcpConnection.output_delivered 0 5 (by decide) true true ls (by decide) hgentle).2.2
    (by decide)

end Adachi.Network
