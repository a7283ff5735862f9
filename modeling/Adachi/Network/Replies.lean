import Adachi.Network.Conversation
import Adachi.Network.LengthPrefixed

/-!
# What a client of the default handler is answered

A `TcpConnection` that keeps its default `onmessage_`, from the bytes that arrive to the bytes
that leave.

## Main results

* `replies_in_order`: in every run what has been sent is the beginning of the replies to the
  frames that have arrived, one for each, in order, and no exception leaves the handler.
* `replies_bounded`: a client that does not get ahead of the replies overflows no buffer, and the
  write buffer does not grow beyond what it gets ahead.
-/

namespace Adachi.Network

open Adachi.Io ByteOrder Framer

/-! ## Frames and replies -/

theorem messageVerdict_consume {xs : Bytes} {n : Nat} {next : Unit} {out : List Bytes}
    (h : messageVerdict xs = .consume n next out) :
    4 + headLength xs ≤ xs.length ∧ headLength xs ≤ kMaxMessageLength ∧
      n = 4 + headLength xs ∧ out = [reply ((xs.drop 4).take (headLength xs))] := by
  have hopen : ¬ Incomplete xs := by
    rw [← messageVerdict_wait_iff, h]
    exact nofun
  have hlong : ¬ TooLong xs := by
    rw [← messageVerdict_halt_iff, h]
    exact nofun
  obtain ⟨rfl, _, rfl⟩ :=
    Verdict.consume.inj (h.symm.trans (messageVerdict_of_complete hopen hlong))
  unfold Incomplete at hopen
  unfold TooLong at hlong
  exact ⟨by omega, by omega, rfl, rfl⟩

theorem length_reply (p : Bytes) : (reply p).length = p.length + 8 := by
  unfold reply
  rw [length_frame, List.length_append, show (ascii " OK!").length = 4 by decide]
  omega

/-- The shortest frame has four bytes, and its reply eight. -/
theorem messageFramer_yields : messageFramer.Yields List.length 2 := by
  intro _ xs n next more h
  obtain ⟨hlen, _, rfl, rfl⟩ := messageVerdict_consume h
  rw [List.map_singleton, List.sum_singleton, length_reply, List.length_take, List.length_drop]
  omega

/-- The frames at the front of a stream, and what remains. -/
structure Frames (stream : Bytes) (payloads : List Bytes) (rest : Bytes) : Prop where
  split : stream = payloads.flatMap frame ++ rest
  accepted : ∀ p ∈ payloads, p.length ≤ kMaxMessageLength

/-- Consuming reads frames, and puts out their replies. -/
theorem frames_of_consumes {xs ys : Bytes} {next : Unit} {out : List Bytes}
    (h : messageFramer.Consumes () xs out next ys) :
    ∃ payloads, Frames xs payloads ys ∧ out = payloads.map reply := by
  induction h with
  | refl => exact ⟨[], ⟨rfl, nofun⟩, rfl⟩
  | @step s' s'' ys out more n _ hverdict ih =>
      obtain ⟨payloads, hframes, hout⟩ := ih
      obtain ⟨hlen, hmax, rfl, rfl⟩ := messageVerdict_consume hverdict
      refine ⟨payloads ++ [(ys.drop 4).take (headLength ys)], ⟨?_, ?_⟩, ?_⟩
      · rw [List.flatMap_append, List.flatMap_singleton, List.append_assoc, frame_slice hlen,
          List.take_append_drop]
        exact hframes.split
      · intro p hp
        rcases List.mem_append.1 hp with hbefore | hlast
        · exact hframes.accepted p hbefore
        · rw [List.mem_singleton.1 hlast, List.length_take]
          omega
      · rw [hout, List.map_append]
        rfl

/-! ## The machine -/

/-- A connection with its read buffer, and whether the loop of the handler is under way. -/
structure MessageConnection where
  handler : MessageHandler
  running : Bool
  conn : TcpConnection

/-- A call of the handler as steps of the connection -/
def HandlerCall.labels (r : SysResult Nat) (ctl : EpollCtl) : HandlerCall → List Label
  | .write message => [⟨.write message r, ctl⟩]
  | .close => [⟨.close, ctl⟩]
  | .threw => []

/-- The calls that a verdict stands for -/
def handlerCalls : Verdict Unit Bytes → List HandlerCall
  | .wait => []
  | .halt => [.close]
  | .consume _ _ out => out.map .write

theorem handlerCalls_labels (r : SysResult Nat) (ctl : EpollCtl) (v : Verdict Unit Bytes) :
    (handlerCalls v).flatMap (HandlerCall.labels r ctl) = verdictLabels r ctl v := by
  cases v with
  | wait => rfl
  | halt => rfl
  | consume n next out =>
      show (out.map HandlerCall.write).flatMap _ = out.map _
      rw [List.flatMap_map]
      exact List.flatMap_pure_eq_map ..

theorem threw_not_mem_handlerCalls (v : Verdict Unit Bytes) : .threw ∉ handlerCalls v := by
  cases v with
  | wait => exact List.not_mem_nil
  | halt => simp [handlerCalls]
  | consume n next out => simp [handlerCalls]

namespace MessageConnection

/-- `TcpConnection(loop, fd, read_buffer_size, write_buffer_size)` -/
def start (loop : LoopId) (fd readBufferSize writeBufferSize : Nat) (callback added : Bool) :
    MessageConnection where
  handler := MessageHandler.start readBufferSize
  running := false
  conn := TcpConnection.new loop fd writeBufferSize callback added

/-- The bytes that a step reads -/
def heard (s : MessageConnection) : TalkStep → Bytes
  | .read segment => if s.conn.status ≠ .kConnecting then [] else segment
  | _ => []

/-- There is room in the read buffer for the segment. -/
def ReadRoom (s : MessageConnection) : TalkStep → Prop
  | .read segment =>
      s.conn.status = .kConnecting → s.handler.buffer.unread.length + segment.length < 2 ^ 31
  | _ => True

section Host

variable [Host] (s : MessageConnection)

/-- The next turn of the handler's loop, with no calls but its own -/
def turned : MessageHandler ⊕ MessageHandler := onmessageTurn { s.handler with calls := [] }

/-- What a step does to the connection -/
def labels : TalkStep → List Label
  | .turn r ctl => (s.turned.elim id id).calls.flatMap (HandlerCall.labels r ctl)
  | .call l => [l]
  | _ => []

def step (l : TalkStep) : MessageConnection :=
  match l with
  | .read segment =>
      if s.conn.status ≠ .kConnecting then s
      else
        { s with
          handler := { s.handler with buffer := (s.handler.buffer.readFd (.ok segment)).2 }
          running := true }
  | .turn _ _ =>
      { handler := s.turned.elim id id
        running := s.turned.isLeft
        conn := connection.run s.conn (s.labels l) }
  | .call _ => { s with conn := connection.run s.conn (s.labels l) }
  | .other => s

/-- The handler runs on the thread of the loop, so between its turns only another thread can
call; and only the handler writes. -/
def Possible : TalkStep → Prop
  | .read segment =>
      s.running = false ∧ 0 < segment.length ∧ segment.length ≤ maxRwCount
  | .turn r ctl => s.running = true ∧ connection.Legal s.conn (s.labels (.turn r ctl))
  | .call l =>
      (s.running = false ∨ l.op = .requestClose) ∧ s.conn.accepts l = [] ∧
        connection.Legal s.conn [l]
  | .other => True

/-- There is room in both buffers for what the step adds to them. -/
def HasRoom (l : TalkStep) : Prop :=
  connection.Each TcpConnection.HasRoom s.conn (s.labels l) ∧ s.ReadRoom l

end Host

end MessageConnection

section Runs

variable [Host]

def messageConnection : Machine MessageConnection TalkStep where
  next := MessageConnection.step
  enabled := MessageConnection.Possible

namespace MessageConnection

variable {s : MessageConnection} {t : Conversation}

/-- **A turn does what the verdict on the unread bytes says.** -/
theorem turned_spec (hfits : s.handler.buffer.Fits) :
    ∃ b : Buffer, b.Fits ∧
      b.unread = verdictRest s.handler.buffer.unread (messageVerdict s.handler.buffer.unread) ∧
      s.turned.elim id id = ⟨b, handlerCalls (messageVerdict s.handler.buffer.unread)⟩ ∧
      s.turned.isLeft = verdictAgain (messageVerdict s.handler.buffer.unread) := by
  cases hverdict : messageVerdict s.handler.buffer.unread with
  | wait =>
      have hturned : s.turned = .inr { s.handler with calls := [] } :=
        onmessageTurn_reads.wait { s.handler with calls := [] } hfits hverdict
      rw [hturned]
      exact ⟨_, hfits, rfl, rfl, rfl⟩
  | halt =>
      have hlong := (messageVerdict_halt_iff _).1 hverdict
      have hturned : s.turned = .inr (MessageHandler.call { s.handler with calls := [] } .close) :=
        onmessageTurn_halt (h := { s.handler with calls := [] }) hfits hlong
      rw [hturned]
      exact ⟨_, hfits, rfl, rfl, rfl⟩
  | consume n next out =>
      obtain ⟨h, b, hturn, hview, hbfits, hunread⟩ :=
        onmessageTurn_reads.consume { s.handler with calls := [] } n next out hfits hverdict
      have hturned : s.turned = .inl h := hturn
      obtain ⟨buffer, calls⟩ := h
      obtain ⟨rfl, _, rfl⟩ := Reading.mk.inj hview
      rw [hturned]
      exact ⟨_, hbfits, hunread, rfl, rfl⟩

/-- The connection and a conversation are at the same point. -/
structure Stands (s : MessageConnection) (t : Conversation) : Prop where
  fits : s.handler.buffer.Fits
  unread : s.handler.buffer.unread = t.unread
  running : s.running = t.running
  conn : s.conn = t.conn
  unthrown : .threw ∉ s.handler.calls

theorem Stands.labels_eq (h : s.Stands t) (l : TalkStep) :
    s.labels l = t.labels messageFramer l := by
  cases l with
  | turn r ctl =>
      obtain ⟨b, _, _, hturned, _⟩ := turned_spec h.fits
      show (s.turned.elim id id).calls.flatMap _ = _
      rw [hturned, handlerCalls_labels, h.unread]
      rfl
  | read segment => rfl
  | call l => rfl
  | other => rfl

theorem Stands.step (h : s.Stands t) {l : TalkStep} (hroom : s.ReadRoom l) :
    (s.step l).Stands (t.step messageFramer l) := by
  have hlabels := h.labels_eq l
  cases l with
  | read segment =>
      show (ite _ _ _ : MessageConnection).Stands (ite _ _ _)
      rw [← h.conn]
      split
      · exact h
      · rename_i hs
        obtain ⟨_, hfits, hunread⟩ := Buffer.readFd_spec h.fits (hroom (not_not.1 hs))
        exact ⟨hfits, hunread.trans (congrArg (· ++ segment) h.unread), rfl, rfl, h.unthrown⟩
  | turn r ctl =>
      obtain ⟨b, hbfits, hunread, hturned, hagain⟩ := turned_spec h.fits
      have hstep : s.step (.turn r ctl) =
          ⟨s.turned.elim id id, s.turned.isLeft, connection.run s.conn (s.labels (.turn r ctl))⟩ :=
        rfl
      rw [hstep, hturned, hagain, hlabels]
      rw [h.unread] at hunread ⊢
      exact ⟨hbfits, hunread, rfl, congrArg (connection.run · _) h.conn,
        threw_not_mem_handlerCalls _⟩
  | call l => exact ⟨h.fits, h.unread, h.running, congrArg (connection.run · _) h.conn, h.unthrown⟩
  | other => exact h

theorem Stands.possible (h : s.Stands t) {l : TalkStep} (hpossible : s.Possible l) :
    t.Possible messageFramer l := by
  have hlabels := h.labels_eq l
  cases l with
  | read segment => exact h.running.symm.trans hpossible.1
  | turn r ctl =>
      refine ⟨h.running.symm.trans hpossible.1, ?_⟩
      rw [← h.conn, show t.labels messageFramer (.turn r ctl) = _ from hlabels.symm]
      exact hpossible.2
  | call l =>
      obtain ⟨_, hsilent, hlegal⟩ := hpossible
      rw [h.conn] at hsilent hlegal
      exact ⟨hsilent, hlegal⟩
  | other => exact trivial

/-- A connection with the default handler reads frames. -/
theorem messageConnection_follows :
    Follows messageConnection messageFramer id heard HasRoom Stands where
  enabled _ _ _ h hpossible := h.possible hpossible
  next _ _ _ h _ hroom := h.step hroom.2
  heard_eq s t l h := by
    cases l with
    | read segment =>
        show ite _ _ _ = ite _ _ _
        rw [h.conn]
    | turn r ctl => rfl
    | call l => rfl
    | other => rfl
  room_iff s t l h := by
    unfold HasRoom Conversation.HasRoom
    rw [h.labels_eq l, h.conn]
    apply and_congr_right
    intro _
    cases l with
    | read segment =>
        show (_ → _ + _ < _) ↔ (_ → _ + _ < _)
        rw [h.conn, h.unread]
    | turn r ctl => exact Iff.rfl
    | call l => exact Iff.rfl
    | other => exact Iff.rfl

omit [Host] in
theorem stands_start {readBufferSize : Nat} (hread : readBufferSize < 2 ^ 31) (loop : LoopId)
    (fd writeBufferSize : Nat) (callback added : Bool) :
    (start loop fd readBufferSize writeBufferSize callback added).Stands
      (Conversation.start loop fd writeBufferSize callback added) where
  fits := Buffer.new_fits hread
  unread := Buffer.unread_new readBufferSize
  running := rfl
  conn := rfl
  unthrown := List.not_mem_nil

/-! ## Every run -/

variable {readBufferSize writeBufferSize : Nat}

/-- **Every frame is replied to once, in order.**  In every run with room in the buffers,
whatever the segmentation, whatever `write(2)` returns and whatever other threads ask of the
connection: what has arrived are frames and a rest that is still unread; what has been sent is
the beginning of the replies to these frames; as long as the connection is open the write buffer
holds the others; no exception has left the handler; and when it has returned there is no frame
more, and for a length above the limit the connection has been asked to close. -/
theorem replies_in_order (hread : readBufferSize < 2 ^ 31) (hwrite : writeBufferSize < 2 ^ 31)
    (loop : LoopId) (fd : Nat) (callback added : Bool) (ls : List TalkStep)
    (hlegal : messageConnection.Legal
      (start loop fd readBufferSize writeBufferSize callback added) ls)
    (hroom : messageConnection.Each HasRoom
      (start loop fd readBufferSize writeBufferSize callback added) ls) :
    let s := messageConnection.run (start loop fd readBufferSize writeBufferSize callback added) ls
    let stream := messageConnection.collect heard
      (start loop fd readBufferSize writeBufferSize callback added) ls
    ∃ payloads rest, Frames stream payloads rest ∧
      s.handler.buffer.unread = rest ∧
      sentBytes s.conn.effects <+: payloads.flatMap reply ∧
      (s.conn.status = .kConnecting →
        sentBytes s.conn.effects ++ s.conn.writeBuffer.unread = payloads.flatMap reply) ∧
      .threw ∉ s.handler.calls ∧
      (s.running = false → Parsed stream payloads rest ∧
        (Incomplete rest ∨ TooLong rest ∧ s.conn.closeRequested = true)) := by
  intro s stream
  obtain ⟨t, out, hstands, htalked⟩ := messageConnection_follows.talked hwrite
    (stands_start hread loop fd writeBufferSize callback added) hlegal hroom
  obtain ⟨payloads, hframes, hout⟩ := frames_of_consumes htalked.consumes
  have hreplies : out.flatten = payloads.flatMap reply := by
    rw [hout, List.flatMap_def]
  have hsent := htalked.sent
  have hopen := htalked.open_
  rw [hreplies] at hsent hopen
  refine ⟨payloads, t.unread, hframes, hstands.unread, ?_⟩
  rw [show s.conn = t.conn from hstands.conn, show s.running = t.running from hstands.running]
  refine ⟨hsent, hopen, hstands.unthrown, ?_⟩
  intro hidle
  have hend : Incomplete t.unread ∨ TooLong t.unread ∧ t.conn.closeRequested = true := by
    cases hverdict : messageVerdict t.unread with
    | wait => exact .inl ((messageVerdict_wait_iff _).1 hverdict)
    | halt => exact .inr ⟨(messageVerdict_halt_iff _).1 hverdict, htalked.refused hidle hverdict⟩
    | consume n next more => exact absurd hverdict (htalked.stuck hidle n next more)
  refine ⟨⟨hframes.split, hframes.accepted, ?_⟩, hend⟩
  intro p hp
  rcases hend with hshort | ⟨hlong, _⟩
  · exact hshort.no_frame hp
  · exact hlong.no_frame hp

/-- **What waits for a client is bounded by how far it gets ahead.**  A reply is at most twice as
long as its frame.  In every run in which twice the bytes read are at no step more than `limit`
ahead of those that `write(2)` has taken, there is room at every step, and the storage of the
write buffer stays within `limit`, or as large as it was made. -/
theorem replies_bounded {limit : Nat} (hlimit : limit < 2 ^ 31)
    (hread : readBufferSize < 2 ^ 31) (hwrite : writeBufferSize < 2 ^ 31)
    (loop : LoopId) (fd : Nat) (callback added : Bool) (ls : List TalkStep)
    (hlegal : messageConnection.Legal
      (start loop fd readBufferSize writeBufferSize callback added) ls)
    (hwindow : Window messageConnection heard MessageConnection.conn 2 limit
      (start loop fd readBufferSize writeBufferSize callback added) ls) :
    messageConnection.Each HasRoom
        (start loop fd readBufferSize writeBufferSize callback added) ls ∧
      (messageConnection.run (start loop fd readBufferSize writeBufferSize callback added)
        ls).conn.writeBuffer.capacity ≤ max writeBufferSize limit :=
  messageConnection_follows.bounded (fun _ _ h => h.conn) messageFramer_yields Nat.two_pos hlimit
    hwrite (stands_start hread loop fd writeBufferSize callback added) ls hlegal hwindow

end MessageConnection

end Runs

open MessageConnection

/-- A payload of one byte arrives, and `write(2)` takes the reply. -/
theorem messageRun_legal [Host] : messageConnection.Legal (start 0 7 1024 1024 true true)
    [.read [0, 0, 0, 1, 7], .turn (.ok 9) ⟨true, true⟩] := by
  have hstart : (start 0 7 1024 1024 true true).Stands (Conversation.start 0 7 1024 true true) :=
    stands_start (by decide) 0 7 1024 true true
  have hstands := hstart.step (l := .read [0, 0, 0, 1, 7]) (fun _ => by decide)
  have hlabels : labels (messageConnection.next (start 0 7 1024 1024 true true)
      (.read [0, 0, 0, 1, 7])) (.turn (.ok 9) ⟨true, true⟩) =
        [⟨.write (reply [7]) (.ok 9), ⟨true, true⟩⟩] :=
    hstands.labels_eq _
  refine ⟨⟨rfl, by decide, by decide⟩, ⟨hstands.running, ?_⟩, trivial⟩
  rw [hlabels]
  exact ⟨show WriteResult.Possible (reply [7]).length (.ok 9) by decide, trivial⟩

theorem window_messageRun :
    let _ : Host := ⟨false⟩
    Window messageConnection heard MessageConnection.conn 2 10 (start 0 7 1024 1024 true true)
      [.read [0, 0, 0, 1, 7], .turn (.ok 9) ⟨true, true⟩] := by
  intro _
  exact window_of_short (by decide)

theorem replies_bounded_frame :
    let _ : Host := ⟨false⟩
    messageConnection.Each MessageConnection.HasRoom (start 0 7 1024 1024 true true)
      [.read [0, 0, 0, 1, 7], .turn (.ok 9) ⟨true, true⟩] := by
  intro _
  exact (replies_bounded (by decide) (by decide) (by decide) 0 7 true true _ messageRun_legal
    window_messageRun).1

theorem replies_in_order_frame :
    let _ : Host := ⟨false⟩
    let s := messageConnection.run (start 0 7 1024 1024 true true)
      [.read [0, 0, 0, 1, 7], .turn (.ok 9) ⟨true, true⟩]
    ∃ payloads rest, Frames [0, 0, 0, 1, 7] payloads rest ∧
      sentBytes s.conn.effects <+: payloads.flatMap reply := by
  intro _ s
  have hroom := (messageConnection_follows.bounded (fun _ _ h => h.conn) messageFramer_yields
    Nat.two_pos (by decide) (by decide) (stands_start (by decide) 0 7 1024 true true)
    [.read [0, 0, 0, 1, 7], .turn (.ok 9) ⟨true, true⟩] messageRun_legal window_messageRun).1
  obtain ⟨payloads, rest, hframes, _, hsent, _⟩ := replies_in_order (by decide) (by decide) 0 7
    true true [.read [0, 0, 0, 1, 7], .turn (.ok 9) ⟨true, true⟩] messageRun_legal hroom
  exact ⟨payloads, rest, hframes, hsent⟩

end Adachi.Network
