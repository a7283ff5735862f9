import Adachi.Kv.Backlog
import Adachi.Kv.StatusField
import Adachi.Lib.Interleaving
import Adachi.Network.Conversation

/-!
# What a client of the server is answered

From the bytes that arrive at a connection to the bytes that leave it: the handler, the store
behind it and the connection that it writes to, with all calls that other threads make.  Only
heads that announce no body get past `HeadCheck` (`kvVerdict_eq`), so what a client is answered
does not depend on the store, and does not change it.

## Main results

* `answers_in_order`: in every run what has been sent is the beginning of the answers to the
  heads that have arrived, one for each, in order.
* `answers_bounded`: a client that does not get ahead of the answers overflows no buffer, and the
  write buffer does not grow beyond what it gets ahead.
* `kvServer_isolated`: connections that share a store do not see each other.
-/

namespace Adachi.Kv

open Adachi.Io Adachi.Network ByteOrder Framer

/-! ## The answer to a head -/

/-- `HeadCheck` has the connection closed. -/
def PacketHead.Refused (head : PacketHead) : Prop := head.Broken ∨ head.bodyLength ≠ 0

instance (head : PacketHead) : Decidable head.Refused := inferInstanceAs (Decidable (_ ∨ _))

/-- A `PING` gets back the status that it came with. -/
def answerStatus (head : PacketHead) : UInt16 :=
  if !isSupportedOpcode head.opcode then kUnsupportedOpcode
  else if head.opcode = kPing then head.status
  else kBadRequest

/-- The answer to a head that is not refused -/
def answer (head : PacketHead) : Bytes :=
  packetBytes (responsePacket head.opcode (answerStatus head) head.requestId [])

@[simp] theorem length_answer (head : PacketHead) : (answer head).length = 24 :=
  packetBytes_length _

/-- What the handler does with the bytes at the front of the buffer, whatever is stored. -/
def headVerdict (xs : Bytes) : Verdict Unit Bytes :=
  if xs.length < 24 then .wait
  else if (headAt xs).Refused then .halt
  else .consume 24 () [answer (headAt xs)]

section Store

variable [Host]

omit [Host] in
/-- A reply without a value -/
theorem replyPacket_nil {p : Packet} {status : UInt16} (h : ¬CarriesValue p.head.opcode status) :
    replyPacket p status [] = responsePacket p.head.opcode status p.head.requestId [] := by
  unfold replyPacket
  rw [if_neg h]

/-- **The store is not asked.**  A head without a body is answered the same by every store, which
stays as it is. -/
theorem echo_head {head : PacketHead} (haccepted : ¬head.Refused) (kvstore : KVStore) :
    echoObject.apply kvstore (checkedPacket ⟨head, []⟩) =
      (some (responsePacket head.opcode (answerStatus head) head.requestId []), kvstore) := by
  have htype : head.msgType = kRequest := by
    by_contra htype
    exact haccepted (.inl (.inr (.inr (.inl htype))))
  have hzero : head.bodyLength = 0 := by
    by_contra hbody
    exact haccepted (.inr hbody)
  have hframed : Packet.Framed ⟨head, []⟩ := by
    show head.bodyLength.toNat = 0
    rw [hzero]
    rfl
  unfold answerStatus
  cases hsupported : isSupportedOpcode head.opcode with
  | false =>
      have hchecked : checkedPacket ⟨head, []⟩ =
          (⟨{ head with status := kUnsupportedOpcode }, []⟩ : Packet) := by
        unfold checkedPacket
        rw [if_pos (by simp [hsupported])]
      rw [hchecked, echo_error (show kUnsupportedOpcode ≠ kOk by decide), if_pos (by simp)]
      exact congrArg (fun p => (some p, kvstore)) (replyPacket_nil (fun h => nomatch h.2))
  | true =>
      rw [if_neg (by simp)]
      by_cases hping : head.opcode = kPing
      · have hdecode : decodePacketToKVRequest ⟨head, []⟩ ≠ none :=
          (decode_no_body_iff htype hframed rfl).2 hping
        have hcarries : ¬CarriesValue head.opcode head.status := by
          rintro ⟨hget, _⟩
          exact opcodes_ne.2.1 (hget.symm.trans hping)
        rw [checkedPacket_accepted hdecode, if_pos hping]
        by_cases hok : head.status = kOk
        · rw [echo_ping hok hping hdecode, ← replyPacket_nil (p := ⟨head, []⟩) hcarries, hok]
        · rw [echo_error hok, ← replyPacket_nil (p := ⟨head, []⟩) hcarries]
      · have hdecode : decodePacketToKVRequest ⟨head, []⟩ = none := by
          by_contra hdecode
          exact hping ((decode_no_body_iff htype hframed rfl).1 hdecode)
        have hchecked : checkedPacket ⟨head, []⟩ =
            (⟨{ head with status := kBadRequest }, []⟩ : Packet) := by
          unfold checkedPacket
          rw [if_neg (by simp [hsupported]), if_pos hdecode]
        rw [hchecked, echo_error (show kBadRequest ≠ kOk by decide), if_neg hping]
        exact congrArg (fun p => (some p, kvstore)) (replyPacket_nil (fun h => nomatch h.2))

/-- The verdict of a framer that has no store, for one that has. -/
def withStore (kvstore : KVStore) : Verdict Unit Bytes → Verdict KVStore Bytes
  | .wait => .wait
  | .halt => .halt
  | .consume n _ out => .consume n kvstore out

theorem kvVerdict_eq (kvstore : KVStore) (xs : Bytes) :
    kvVerdict kvstore xs = withStore kvstore (headVerdict xs) := by
  unfold kvVerdict headVerdict
  split
  · rfl
  · split
    · rename_i hrefused
      rw [if_pos (show (headAt xs).Refused from hrefused)]
      rfl
    · rename_i haccepted
      rw [if_neg (show ¬(headAt xs).Refused from haccepted), echo_head haccepted]
      rfl

end Store

theorem headVerdict_wait_iff (xs : Bytes) : headVerdict xs = .wait ↔ xs.length < 24 := by
  unfold headVerdict
  split
  · rename_i h
    exact iff_of_true rfl h
  · rename_i h
    split <;> simpa using h

theorem headVerdict_halt_iff (xs : Bytes) :
    headVerdict xs = .halt ↔ 24 ≤ xs.length ∧ (headAt xs).Refused := by
  unfold headVerdict
  split
  · rename_i h
    exact iff_of_false nofun fun hrefused => absurd hrefused.1 (Nat.not_le.2 h)
  · rename_i h
    split
    · rename_i hrefused
      exact iff_of_true rfl ⟨Nat.not_lt.1 h, hrefused⟩
    · rename_i haccepted
      exact iff_of_false nofun fun hrefused => haccepted hrefused.2

theorem headVerdict_consume {xs : Bytes} {n : Nat} {next : Unit} {out : List Bytes}
    (h : headVerdict xs = .consume n next out) :
    24 ≤ xs.length ∧ ¬(headAt xs).Refused ∧ n = 24 ∧ out = [answer (headAt xs)] := by
  unfold headVerdict at h
  split at h
  · cases h
  · rename_i hlen
    split at h
    · cases h
    · rename_i haccepted
      cases h
      exact ⟨Nat.not_lt.1 hlen, haccepted, rfl, rfl⟩

theorem headVerdict_append {xs ys : Bytes} (h : headVerdict xs ≠ .wait) :
    headVerdict (xs ++ ys) = headVerdict xs := by
  rw [Ne, headVerdict_wait_iff] at h
  unfold headVerdict
  rw [if_neg h, if_neg (by rw [List.length_append]; omega), headAt_append (by omega)]

/-- Requests as an incremental reader that needs no store -/
def headFramer : Framer UInt8 Unit Bytes where
  verdict _ := headVerdict
  verdict_nil _ := rfl
  consume_pos := by
    intro _ xs n next out h
    obtain ⟨hlen, _, rfl, _⟩ := headVerdict_consume h
    exact ⟨Nat.succ_pos 23, hlen⟩
  verdict_append _ := headVerdict_append

theorem headFramer_yields : headFramer.Yields List.length 1 := by
  intro _ xs n next more h
  obtain ⟨_, _, rfl, rfl⟩ := headVerdict_consume h
  simp

/-- The heads at the front of a stream, none of them refused, and what remains. -/
structure Heads (stream : Bytes) (heads : List PacketHead) (rest : Bytes) : Prop where
  split : stream = heads.flatMap headBytes ++ rest
  accepted : ∀ head ∈ heads, ¬head.Refused

/-- Consuming reads heads, and puts out their answers. -/
theorem heads_of_consumes {xs ys : Bytes} {next : Unit} {out : List Bytes}
    (h : headFramer.Consumes () xs out next ys) :
    ∃ heads, Heads xs heads ys ∧ out = heads.map answer := by
  induction h with
  | refl => exact ⟨[], ⟨rfl, nofun⟩, rfl⟩
  | @step s' s'' ys out more n _ hverdict ih =>
      obtain ⟨heads, hheads, hout⟩ := ih
      obtain ⟨hlen, haccepted, rfl, rfl⟩ := headVerdict_consume hverdict
      refine ⟨heads ++ [headAt ys], ⟨?_, ?_⟩, ?_⟩
      · rw [List.flatMap_append, List.flatMap_singleton, List.append_assoc,
          headBytes_headAt hlen, List.take_append_drop]
        exact hheads.split
      · intro head hhead
        rcases List.mem_append.1 hhead with hbefore | hlast
        · exact hheads.accepted head hbefore
        · rwa [List.mem_singleton.1 hlast]
      · rw [hout, List.map_append]
        rfl

/-- What the conversation has come to, head by head -/
theorem heads_of_talked {stream : Bytes} {out : List Bytes} {t : Conversation}
    (h : Talked headFramer stream out t) :
    ∃ heads rest, Heads stream heads rest ∧ t.unread = rest ∧
      sentBytes t.conn.effects <+: heads.flatMap answer ∧
      (t.conn.status = .kConnecting →
        sentBytes t.conn.effects ++ t.conn.writeBuffer.unread = heads.flatMap answer) ∧
      (t.running = false →
        rest.length < 24 ∨ (headAt rest).Refused ∧ t.conn.closeRequested = true) := by
  obtain ⟨heads, hheads, hout⟩ := heads_of_consumes h.consumes
  have hanswers : out.flatten = heads.flatMap answer := by
    rw [hout, List.flatMap_def]
  have hsent := h.sent
  have hopen := h.open_
  rw [hanswers] at hsent hopen
  refine ⟨heads, t.unread, hheads, rfl, hsent, hopen, ?_⟩
  intro hidle
  cases hverdict : headVerdict t.unread with
  | wait => exact .inl ((headVerdict_wait_iff _).1 hverdict)
  | halt =>
      exact .inr ⟨((headVerdict_halt_iff _).1 hverdict).2, h.refused hidle hverdict⟩
  | consume n next more => exact absurd hverdict (h.stuck hidle n next more)

/-! ## A connection of the server -/

/-- What a step of the server's connection is for the conversation -/
def KvLabel.talk : KvLabel → TalkStep
  | .read segment => .read segment
  | .turn r ctl => .turn r ctl
  | .call l => .call l
  | .others _ => .other

/-- The calls that a verdict stands for -/
def verdictCalls : Verdict Unit Bytes → List Call
  | .wait => []
  | .halt => [.close]
  | .consume _ _ out => out.map .write

theorem verdictCalls_label (r : SysResult Nat) (ctl : EpollCtl) (v : Verdict Unit Bytes) :
    (verdictCalls v).map (Call.label r ctl) = verdictLabels r ctl v := by
  cases v with
  | wait => rfl
  | halt => rfl
  | consume n next out => exact List.map_map

theorem accepts_of_not_writes {l : Label} (h : writes l.op = false) (c : TcpConnection) :
    c.accepts l = [] := by
  obtain ⟨op, ctl⟩ := l
  cases op with
  | write message r => cases h
  | writeInThread message r => cases h
  | activate | activateInThread | writeFd | close | requestClose | closeInThread => rfl

namespace KvConnection

/-- The bytes that a step reads -/
def heard (s : KvConnection) : KvLabel → Bytes
  | .read segment => if s.conn.status ≠ .kConnecting then [] else segment
  | _ => []

/-- There is room in the read buffer for the segment. -/
def ReadRoom (s : KvConnection) : KvLabel → Prop
  | .read segment =>
      s.conn.status = .kConnecting → s.handler.buffer.unread.length + segment.length < 2 ^ 31
  | _ => True

section Turns

variable [Host]

/-- There is room in both buffers for what the step adds to them. -/
def HasRoom (s : KvConnection) (l : KvLabel) : Prop :=
  EachCall TcpConnection.HasRoom s l ∧ s.ReadRoom l

variable {s : KvConnection} {t : Conversation}

/-- **A turn does what the verdict on the unread bytes says**, and leaves the store alone. -/
theorem turned_spec (hfits : s.handler.buffer.Fits) :
    ∃ b : Buffer, b.Fits ∧
      b.unread = verdictRest s.handler.buffer.unread (headVerdict s.handler.buffer.unread) ∧
      s.turned.elim id id =
        ⟨b, s.handler.kvstore, verdictCalls (headVerdict s.handler.buffer.unread)⟩ ∧
      s.turned.isLeft = verdictAgain (headVerdict s.handler.buffer.unread) := by
  have hverdict := kvVerdict_eq s.handler.kvstore s.handler.buffer.unread
  cases hhead : headVerdict s.handler.buffer.unread with
  | wait =>
      rw [hhead] at hverdict
      have hturned : s.turned = .inr { s.handler with calls := [] } :=
        onMessageTurn_wait (h := { s.handler with calls := [] }) hfits hverdict
      rw [hturned]
      exact ⟨_, hfits, rfl, rfl, rfl⟩
  | halt =>
      rw [hhead] at hverdict
      have hturned : s.turned = .inr (Handler.call { s.handler with calls := [] } .close) :=
        onMessageTurn_halt (h := { s.handler with calls := [] }) hfits hverdict
      rw [hturned]
      exact ⟨_, hfits, rfl, rfl, rfl⟩
  | consume n next out =>
      rw [hhead] at hverdict
      obtain ⟨b, hturn, hbfits, hunread⟩ :=
        onMessageTurn_consume (h := { s.handler with calls := [] }) hfits hverdict
      have hturned : s.turned = .inl ⟨b, s.handler.kvstore, out.map .write⟩ := hturn
      rw [hturned]
      exact ⟨b, hbfits, hunread, rfl, rfl⟩

/-- The connection and a conversation are at the same point. -/
structure Stands (s : KvConnection) (t : Conversation) : Prop where
  fits : s.handler.buffer.Fits
  unread : s.handler.buffer.unread = t.unread
  running : s.running = t.running
  conn : s.conn = t.conn

theorem Stands.labels_eq (h : s.Stands t) (l : KvLabel) :
    s.labels l = t.labels headFramer l.talk := by
  cases l with
  | turn r ctl =>
      obtain ⟨b, _, _, hturned, _⟩ := turned_spec h.fits
      have hcalls : s.turned.elim Handler.calls Handler.calls =
          (s.turned.elim id id).calls := by
        cases s.turned with
        | inl next => rfl
        | inr next => rfl
      rw [labels_turn, hcalls, hturned, verdictCalls_label, h.unread]
      rfl
  | read segment => rfl
  | call l => rfl
  | others kvstore => rfl

theorem Stands.step (h : s.Stands t) {l : KvLabel} (hroom : s.ReadRoom l) :
    (s.step l).Stands (t.step headFramer l.talk) := by
  have hlabels := h.labels_eq l
  cases l with
  | read segment =>
      show (ite _ _ _ : KvConnection).Stands (ite _ _ _)
      rw [← h.conn]
      split
      · exact h
      · rename_i hs
        obtain ⟨_, hfits, hunread⟩ := Buffer.readFd_spec h.fits (hroom (not_not.1 hs))
        exact ⟨hfits, hunread.trans (congrArg (· ++ segment) h.unread), rfl, rfl⟩
  | turn r ctl =>
      obtain ⟨b, hbfits, hunread, hturned, hagain⟩ := turned_spec h.fits
      have hstep : s.step (.turn r ctl) =
          ⟨s.turned.elim id id, s.turned.isLeft, connection.run s.conn (s.labels (.turn r ctl))⟩ :=
        rfl
      rw [hstep, hturned, hagain, hlabels]
      rw [h.unread] at hunread ⊢
      exact ⟨hbfits, hunread, rfl, congrArg (connection.run · _) h.conn⟩
  | call l => exact ⟨h.fits, h.unread, h.running, congrArg (connection.run · _) h.conn⟩
  | others kvstore => exact ⟨h.fits, h.unread, h.running, h.conn⟩

theorem Stands.possible (h : s.Stands t) {l : KvLabel} (hpossible : s.Possible l) :
    t.Possible headFramer l.talk := by
  have hlabels := h.labels_eq l
  cases l with
  | read segment => exact h.running.symm.trans hpossible.1
  | turn r ctl =>
      refine ⟨h.running.symm.trans hpossible.1, ?_⟩
      rw [← h.conn, show t.labels headFramer (.turn r ctl) = _ from hlabels.symm]
      exact hpossible.2
  | call l => exact ⟨accepts_of_not_writes hpossible.2.1 t.conn, h.conn ▸ hpossible.2.2⟩
  | others kvstore => exact trivial

/-- The server's connection reads heads. -/
theorem kvConnection_follows :
    Follows kvConnection headFramer KvLabel.talk heard HasRoom Stands where
  enabled _ _ _ h hpossible := h.possible hpossible
  next _ _ _ h _ hroom := h.step hroom.2
  heard_eq s t l h := by
    cases l with
    | read segment =>
        show ite _ _ _ = ite _ _ _
        rw [h.conn]
    | turn r ctl => rfl
    | call l => rfl
    | others kvstore => rfl
  room_iff s t l h := by
    unfold HasRoom EachCall Conversation.HasRoom
    rw [h.labels_eq l, h.conn]
    apply and_congr_right
    intro _
    cases l with
    | read segment =>
        show (_ → _ + _ < _) ↔ (_ → _ + _ < _)
        rw [h.conn, h.unread]
    | turn r ctl => exact Iff.rfl
    | call l => exact Iff.rfl
    | others kvstore => exact Iff.rfl

omit [Host] in
theorem stands_start (loop : LoopId) (fd : Nat) (callback added : Bool) (kvstore : KVStore) :
    (start loop fd callback added kvstore).Stands
      (Conversation.start loop fd 1024 callback added) where
  fits := Buffer.new_fits (by decide)
  unread := Buffer.unread_new 1024
  running := rfl
  conn := rfl

/-- **Every head is answered once, in order.**  In every run with room in the buffers, whatever
the segmentation, whatever `write(2)` returns, whatever other threads ask of the connection and
other connections do to the store: what has arrived are heads that are not refused, and a rest
that is still unread; what has been sent is the beginning of the answers to these heads; as long
as the connection is open the write buffer holds the others; and when the handler has returned
the rest is less than a head, or a head that is refused and for which the connection has been
asked to close. -/
theorem answers_in_order (loop : LoopId) (fd : Nat) (callback added : Bool) (kvstore : KVStore)
    (ls : List KvLabel) (hlegal : kvConnection.Legal (start loop fd callback added kvstore) ls)
    (hroom : kvConnection.Each HasRoom (start loop fd callback added kvstore) ls) :
    let s := kvConnection.run (start loop fd callback added kvstore) ls
    ∃ heads rest,
      Heads (kvConnection.collect heard (start loop fd callback added kvstore) ls) heads rest ∧
      s.handler.buffer.unread = rest ∧
      sentBytes s.conn.effects <+: heads.flatMap answer ∧
      (s.conn.status = .kConnecting →
        sentBytes s.conn.effects ++ s.conn.writeBuffer.unread = heads.flatMap answer) ∧
      (s.running = false →
        rest.length < 24 ∨ (headAt rest).Refused ∧ s.conn.closeRequested = true) := by
  intro s
  obtain ⟨t, out, hstands, htalked⟩ := kvConnection_follows.talked (by decide)
    (stands_start loop fd callback added kvstore) hlegal hroom
  rw [hstands.unread, hstands.conn, hstands.running]
  exact heads_of_talked htalked

/-! ## Room -/

/-- **What waits for a client is bounded by how far it gets ahead.**  In every run, of any length,
in which the bytes read are at no step more than `limit` ahead of those that `write(2)` has taken,
both buffers have room at every step, the additions in `WriteBuffer` stay in range, and the
storage of the write buffer stays within `limit`, or as large as it was made. -/
theorem answers_bounded {limit : Nat} (hlimit : limit < 2 ^ 31) (loop : LoopId) (fd : Nat)
    (callback added : Bool) (kvstore : KVStore) (ls : List KvLabel)
    (hlegal : kvConnection.Legal (start loop fd callback added kvstore) ls)
    (hwindow : Window kvConnection heard KvConnection.conn 1 limit
      (start loop fd callback added kvstore) ls) :
    kvConnection.Each HasRoom (start loop fd callback added kvstore) ls ∧
      kvConnection.Each InRange (start loop fd callback added kvstore) ls ∧
      ∀ n ≤ ls.length,
        let s := kvConnection.run (start loop fd callback added kvstore) (ls.take n)
        s.handler.buffer.WF ∧ s.conn.writeBuffer.WF ∧
          s.conn.writeBuffer.capacity ≤ max 1024 limit := by
  have hbounded := kvConnection_follows.bounded (fun _ _ h => h.conn) headFramer_yields
    Nat.one_pos hlimit (by decide) (stands_start loop fd callback added kvstore)
  have hroom := (hbounded ls hlegal hwindow).1
  have hfits : ∀ ls, kvConnection.Legal (start loop fd callback added kvstore) ls →
      kvConnection.Each HasRoom (start loop fd callback added kvstore) ls →
      (kvConnection.run (start loop fd callback added kvstore) ls).handler.buffer.Fits ∧
        (kvConnection.run (start loop fd callback added kvstore) ls).conn.writeBuffer.Fits := by
    refine kvConnection.run_invariant_each
      (I := fun s => s.handler.buffer.Fits ∧ s.conn.writeBuffer.Fits)
      ⟨Buffer.new_fits (by decide), Buffer.new_fits (by decide)⟩ ?_
    intro s l h hl hr
    have hstands : s.Stands ⟨s.handler.buffer.unread, s.running, s.conn⟩ := ⟨h.1, rfl, rfl, rfl⟩
    refine ⟨(hstands.step hr.2).fits, step_fits h.2 hl ?_⟩
    exact fun n hn => (hr.1 n hn).roomy
  refine ⟨hroom, ?_, ?_⟩
  · intro n hn
    have hbefore := (hfits _ (hlegal.take _ n) (hroom.take _ n)).2
    exact (TcpConnection.each_inRange_iff hbefore
      (Possible.legal (hlegal.enabled_take _ hn))).2 fun k hk => ((hroom n hn).1 k hk).roomy
  · intro n _
    obtain ⟨hread, hwrite⟩ := hfits _ (hlegal.take _ n) (hroom.take _ n)
    rw [← List.take_append_drop n ls] at hwindow
    exact ⟨hread.toWF, hwrite.toWF, (hbounded _ (hlegal.take _ n) hwindow.of_append).2⟩

/-! ## Connections that share a store -/

theorem step_kvstore (hfits : s.handler.buffer.Fits) {l : KvLabel}
    (hown : ∀ kvstore, l ≠ .others kvstore) :
    (s.step l).handler.kvstore = s.handler.kvstore := by
  cases l with
  | read segment =>
      show (ite _ _ _ : KvConnection).handler.kvstore = _
      split
      · rfl
      · rfl
  | turn r ctl =>
      obtain ⟨b, _, _, hturned, _⟩ := turned_spec hfits
      show (s.turned.elim id id).kvstore = _
      rw [hturned]
  | call l => rfl
  | others kvstore => exact absurd rfl (hown kvstore)

theorem step_handler_fits (hfits : s.handler.buffer.Fits) {l : KvLabel}
    (hroom : s.ReadRoom l) : (s.step l).handler.buffer.Fits :=
  (Stands.step (t := ⟨s.handler.buffer.unread, s.running, s.conn⟩) ⟨hfits, rfl, rfl, rfl⟩
    hroom).fits

end Turns

end KvConnection

/-- The connections of a server and the store they share. -/
structure KvShared (ι : Type) where
  kvstore : KVStore
  conns : ι → KvConnection

namespace KvShared

variable {ι : Type}

/-- A connection, which finds the store as the others have left it. -/
def conn (s : KvShared ι) (i : ι) : KvConnection :=
  { s.conns i with handler := { (s.conns i).handler with kvstore := s.kvstore } }

/-- New connections of a server with this store -/
def start (loop : ι → LoopId) (fd : ι → Nat) (callback : Bool) (added : ι → Bool)
    (kvstore : KVStore) : KvShared ι :=
  ⟨kvstore, fun i => KvConnection.start (loop i) (fd i) callback (added i) kvstore⟩

end KvShared

section Server

variable [Host] {ι : Type} [DecidableEq ι]

/-- A step of one of the connections, and the store that it leaves to all of them. -/
def kvServer (ι : Type) [DecidableEq ι] : Machine (KvShared ι) (ι × KvLabel) where
  next s l :=
    let c := (s.conn l.1).step l.2
    ⟨c.handler.kvstore, Function.update s.conns l.1 c⟩
  enabled s l := (∀ kvstore, l.2 ≠ .others kvstore) ∧ (s.conn l.1).Possible l.2

/-- All connections have found the same store. -/
structure KvShared.Even (s : KvShared ι) : Prop where
  kvstore : ∀ i, (s.conns i).handler.kvstore = s.kvstore
  fits : ∀ i, (s.conns i).handler.buffer.Fits

omit [Host] [DecidableEq ι] in
theorem KvShared.Even.conn_eq {s : KvShared ι} (h : s.Even) (i : ι) : s.conn i = s.conns i := by
  unfold KvShared.conn
  rw [← h.kvstore i]

/-- **Step lemma**: the connection steps as it does alone. -/
theorem KvShared.Even.next {s : KvShared ι} (h : s.Even) {l : ι × KvLabel}
    (henabled : (kvServer ι).enabled s l) (hroom : (s.conns l.1).ReadRoom l.2) :
    ((kvServer ι).next s l).Even ∧ ((kvServer ι).next s l).kvstore = s.kvstore ∧
      ((kvServer ι).next s l).conns = (kvConnection.family ι).next s.conns l := by
  have hstore := KvConnection.step_kvstore (h.fits l.1) henabled.1
  have hnext : (kvServer ι).next s l = ⟨s.kvstore, (kvConnection.family ι).next s.conns l⟩ := by
    show KvShared.mk ((s.conn l.1).step l.2).handler.kvstore
      (Function.update s.conns l.1 ((s.conn l.1).step l.2)) = _
    rw [h.conn_eq, hstore, h.kvstore]
    rfl
  rw [hnext]
  refine ⟨⟨?_, ?_⟩, rfl, rfl⟩
  · intro i
    show (Function.update s.conns l.1 ((s.conns l.1).step l.2) i).handler.kvstore = s.kvstore
    by_cases hi : i = l.1
    · rw [hi, Function.update_self, hstore]
      exact h.kvstore l.1
    · rw [Function.update_of_ne hi]
      exact h.kvstore i
  · intro i
    show (Function.update s.conns l.1 ((s.conns l.1).step l.2) i).handler.buffer.Fits
    by_cases hi : i = l.1
    · rw [hi, Function.update_self]
      exact KvConnection.step_handler_fits (h.fits l.1) hroom
    · rw [Function.update_of_ne hi]
      exact h.fits i

/-- **Run lemma.** -/
theorem KvShared.Even.run {s : KvShared ι} (h : s.Even) {ls : List (ι × KvLabel)}
    (hlegal : (kvServer ι).Legal s ls)
    (hroom : (kvServer ι).Each (fun s l => (s.conns l.1).ReadRoom l.2) s ls) :
    (kvConnection.family ι).Legal s.conns ls ∧ ((kvServer ι).run s ls).kvstore = s.kvstore ∧
      ((kvServer ι).run s ls).conns = (kvConnection.family ι).run s.conns ls := by
  induction ls generalizing s with
  | nil => exact ⟨trivial, rfl, rfl⟩
  | cons l ls ih =>
      rw [Machine.each_cons] at hroom
      obtain ⟨heven, hstore, hconns⟩ := h.next hlegal.1 hroom.1
      obtain ⟨hrest, hkept, hrun⟩ := ih heven hlegal.2 hroom.2
      rw [hconns] at hrest hrun
      refine ⟨⟨?_, hrest⟩, hkept.trans hstore, hrun⟩
      show (s.conns l.1).Possible l.2
      rw [← h.conn_eq l.1]
      exact hlegal.1.2

/-- **Connections do not see each other.**  In every run of a server, whatever its clients send
and however the turns of its connections are interleaved, the store stays as it was at the
start: no request that arrives over the network reaches it.  And each connection does what it
does alone with its own steps. -/
theorem kvServer_isolated (loop : ι → LoopId) (fd : ι → Nat) (callback : Bool)
    (added : ι → Bool) (kvstore : KVStore) (ls : List (ι × KvLabel))
    (hlegal : (kvServer ι).Legal (KvShared.start loop fd callback added kvstore) ls)
    (hroom : (kvServer ι).Each (fun s l => (s.conns l.1).ReadRoom l.2)
      (KvShared.start loop fd callback added kvstore) ls) :
    let s := (kvServer ι).run (KvShared.start loop fd callback added kvstore) ls
    s.kvstore = kvstore ∧ ∀ i,
      kvConnection.Legal (KvConnection.start (loop i) (fd i) callback (added i) kvstore)
        (Machine.own i ls) ∧
      s.conns i = kvConnection.run (KvConnection.start (loop i) (fd i) callback (added i) kvstore)
        (Machine.own i ls) := by
  intro s
  have heven : (KvShared.start loop fd callback added kvstore).Even :=
    ⟨fun _ => rfl, fun _ => Buffer.new_fits (by decide)⟩
  obtain ⟨hfamily, hstore, hconns⟩ := heven.run hlegal hroom
  refine ⟨hstore, ?_⟩
  intro i
  refine ⟨Machine.Legal.own kvConnection hfamily i, ?_⟩
  show s.conns i = _
  rw [show s.conns = _ from hconns, kvConnection.run_family]
  rfl

end Server

/-! ## Runs with one `PING` -/

open KvConnection

theorem window_pingRun :
    let _ : Host := ⟨false⟩
    Window kvConnection heard KvConnection.conn 1 24 (start 0 7 true true KVStore.new)
      (pingRun 1) := by
  intro _
  exact window_of_short (by decide)

/-- A `PING` to a peer that takes nothing: the answer waits. -/
theorem answers_bounded_ping :
    let _ : Host := ⟨false⟩
    kvConnection.Each KvConnection.HasRoom (start 0 7 true true KVStore.new) (pingRun 1) := by
  intro _
  obtain ⟨hlegal, _⟩ := waiting_pingRun 0 7 true true KVStore.new 1 (by decide)
  exact (answers_bounded (by decide) 0 7 true true KVStore.new (pingRun 1) hlegal window_pingRun).1

theorem room_pingRun :
    let _ : Host := ⟨false⟩
    kvConnection.Each KvConnection.HasRoom (start 0 7 true true KVStore.new) (pingRun 1) := by
  intro _
  obtain ⟨hlegal, _⟩ := waiting_pingRun 0 7 true true KVStore.new 1 (by decide)
  exact (kvConnection_follows.bounded (fun _ _ h => h.conn) headFramer_yields Nat.one_pos
    (by decide) (by decide) (stands_start 0 7 true true KVStore.new) (pingRun 1) hlegal
    window_pingRun).1

/-- And what is sent and what waits are the answer. -/
theorem answers_in_order_ping :
    let _ : Host := ⟨false⟩
    let s := kvConnection.run (start 0 7 true true KVStore.new) (pingRun 1)
    ∃ heads rest, Heads ping heads rest ∧
      sentBytes s.conn.effects ++ s.conn.writeBuffer.unread = heads.flatMap answer := by
  intro _ s
  obtain ⟨hlegal, hwaiting, _⟩ := waiting_pingRun 0 7 true true KVStore.new 1 (by decide)
  obtain ⟨heads, rest, hheads, _, _, hopen, _⟩ :=
    answers_in_order 0 7 true true KVStore.new (pingRun 1) hlegal room_pingRun
  exact ⟨heads, rest, hheads, hopen hwaiting.status⟩

/-- `write(2)` may always have no room. -/
theorem possible_stalledTurn [Host] {s : KvConnection} (h : s.running = true) :
    s.Possible stalledTurn := by
  refine ⟨h, ?_⟩
  rw [labels_turn]
  generalize s.turned.elim Handler.calls Handler.calls = calls
  generalize s.conn = c
  induction calls generalizing c with
  | nil => trivial
  | cons call calls ih =>
      refine ⟨?_, ih _⟩
      cases call with
      | write message => trivial
      | close => trivial

/-- A `PING` arrives at each of two connections, and each handler takes a turn. -/
theorem kvServer_isolated_pings :
    let _ : Host := ⟨false⟩
    let fd : Bool → Nat := fun i => if i then 7 else 8
    let s := (kvServer Bool).run (KvShared.start (fun _ => 0) fd true (fun _ => true) KVStore.new)
      [(true, .read ping), (false, .read ping), (false, stalledTurn), (true, stalledTurn)]
    s.kvstore = KVStore.new ∧ ∀ i, s.conns i =
      kvConnection.run (start 0 (fd i) true true KVStore.new) [.read ping, stalledTurn] := by
  intro _ fd s
  obtain ⟨hstore, halone⟩ := kvServer_isolated (fun _ : Bool => 0) fd true (fun _ => true)
    KVStore.new [(true, .read ping), (false, .read ping), (false, stalledTurn), (true, stalledTurn)]
    ⟨⟨nofun, rfl, by decide, by decide⟩, ⟨nofun, rfl, by decide, by decide⟩,
      ⟨nofun, possible_stalledTurn rfl⟩, ⟨nofun, possible_stalledTurn rfl⟩, trivial⟩ (by
      simp only [Machine.each_cons]
      exact ⟨fun _ => by decide, fun _ => by decide, trivial, trivial, Machine.each_nil _ _⟩)
  refine ⟨hstore, fun i => ?_⟩
  cases i with
  | false => exact (halone false).2
  | true => exact (halone true).2

end Adachi.Kv
