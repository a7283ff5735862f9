import Adachi.Kv.Segmentation
import Adachi.Network.WriteCursor

/-!
# The backlog of a KV connection

The on-message handler writes a response for each request it reads, and `Write` keeps in the
write buffer what the peer does not take.  On the way from the handler to `WriteBuffer` nothing
asks how much is waiting there, so a peer that sends requests and reads no response drives the
write cursor out of `int`.

## Main results

* `cursors_in_range_iff`: in every run the additions stay in range and the cursors in order
  exactly as long as the backlog and what is added to it are together fewer than `2 ^ 31` bytes.
* `pings_overflow`: pipelined `PING`s that break this.
-/

namespace Adachi.Kv

open Adachi.Io Adachi.Network ByteOrder

/-! ## The machine -/

/-- A connection of the server: its handler, whether the loop of the handler is under way, and
the connection that the handler writes to. -/
structure KvConnection where
  handler : Handler
  running : Bool
  conn : TcpConnection

/-- `read` is a `Read` that gets a segment and starts the handler, `turn` a turn of its loop, in
which `write(2)` returns `r`.  Everything else that happens to the connection is a `call`; the
requests of `others` change the store. -/
inductive KvLabel where
  | read (segment : Bytes)
  | turn (r : SysResult Nat) (ctl : EpollCtl)
  | call (l : Label)
  | others (kvstore : KVStore)

/-- A call of the handler as a step of the connection. -/
def Call.label (r : SysResult Nat) (ctl : EpollCtl) : Call → Label
  | .write message => ⟨.write message r, ctl⟩
  | .close => ⟨.close, ctl⟩

/-- `Write`, directly or as a task. -/
def writes : Op → Bool
  | .write _ _ => true
  | .writeInThread _ _ => true
  | _ => false

/-- The label writes at most `n` bytes. -/
def writesAtMost (n : Nat) (l : Label) : Prop :=
  ∀ message r, l.op = .write message r → message.length ≤ n

theorem writesAtMost_mono {n m : Nat} (h : n ≤ m) {l : Label} (hl : writesAtMost n l) :
    writesAtMost m l := by
  intro message r hop
  exact Nat.le_trans (hl message r hop) h

namespace KvConnection

/-- A new connection, with the buffers as `TcpServer` makes them. -/
def start (loop : LoopId) (fd : Nat) (callback added : Bool) (kvstore : KVStore) :
    KvConnection where
  handler := ⟨Buffer.new 1024, kvstore, []⟩
  running := false
  conn := TcpConnection.new loop fd 1024 callback added

section Host

variable [Host] (s : KvConnection)

/-- The next turn of the handler's loop, with no calls but its own. -/
def turned : Handler ⊕ Handler :=
  onMessageTurn KVService.default { s.handler with calls := [] }

/-- What a step does to the connection. -/
def labels : KvLabel → List Label
  | .turn r ctl => (s.turned.elim Handler.calls Handler.calls).map (Call.label r ctl)
  | .call l => [l]
  | _ => []

def step (l : KvLabel) : KvConnection :=
  match l with
  | .read segment =>
      if s.conn.status ≠ .kConnecting then s
      else
        { s with
          handler := { s.handler with buffer := (s.handler.buffer.readFd (.ok segment)).2 }
          running := true }
  | .turn _ _ =>
      { handler := s.turned.elim id id
        running := s.turned.isLeft
        conn := connection.run s.conn (s.labels l) }
  | .call _ => { s with conn := connection.run s.conn (s.labels l) }
  | .others kvstore => { s with handler := { s.handler with kvstore := kvstore } }

/-- The handler runs on the thread of the loop, so between its turns only another thread can
call; and only the handler writes. -/
def Possible : KvLabel → Prop
  | .read segment =>
      s.running = false ∧ 0 < segment.length ∧ segment.length ≤ maxRwCount
  | .turn r ctl => s.running = true ∧ connection.Legal s.conn (s.labels (.turn r ctl))
  | .call l =>
      (s.running = false ∨ l.op = .requestClose) ∧ writes l.op = false ∧
        connection.Legal s.conn [l]
  | .others _ => True

end Host

end KvConnection

section Runs

variable [Host]

def kvConnection : Machine KvConnection KvLabel where
  next := KvConnection.step
  enabled := KvConnection.Possible

namespace KvConnection

variable {s : KvConnection} {l : KvLabel}

theorem labels_turn (s : KvConnection) (r : SysResult Nat) (ctl : EpollCtl) :
    s.labels (.turn r ctl) =
      (s.turned.elim Handler.calls Handler.calls).map (Call.label r ctl) := rfl

theorem step_conn (s : KvConnection) (l : KvLabel) :
    (s.step l).conn = connection.run s.conn (s.labels l) := by
  cases l with
  | read segment =>
      show (ite _ _ _ : KvConnection).conn = s.conn
      split
      · rfl
      · rfl
  | turn r ctl => rfl
  | call l => rfl
  | others kvstore => rfl

theorem Possible.legal (h : s.Possible l) : connection.Legal s.conn (s.labels l) := by
  cases l with
  | read segment => exact connection.legal_nil s.conn
  | turn r ctl => exact h.2
  | call l => exact h.2.2
  | others kvstore => exact connection.legal_nil s.conn

/-! ## The cursors of the write buffer -/

/-- Everything the step does to the connection has a property. -/
def EachCall (P : TcpConnection → Label → Prop) (s : KvConnection) (l : KvLabel) : Prop :=
  connection.Each P s.conn (s.labels l)

/-- Every `WriteBuffer` call of the step stays in range. -/
def InRange : KvConnection → KvLabel → Prop := EachCall TcpConnection.InRange

/-- At every `WriteBuffer` call of the step, the backlog and what is added to it are fewer than
`2 ^ 31` bytes. -/
def Roomy : KvConnection → KvLabel → Prop := EachCall TcpConnection.Roomy

/-- **Step lemma.** -/
theorem step_fits (h : s.conn.writeBuffer.Fits) (hpossible : s.Possible l)
    (hroomy : s.Roomy l) : (s.step l).conn.writeBuffer.Fits := by
  rw [step_conn]
  exact TcpConnection.run_fits h hpossible.legal hroomy

/-- **Cursors in range.**  In every run, whatever arrives and whatever `write(2)` returns: the
additions of every `WriteBuffer` call stay in range and the cursors of the write buffer are in
order after every step, if and only if at every call the backlog and what is added to it are
fewer than `2 ^ 31` bytes. -/
theorem cursors_in_range_iff (loop : LoopId) (fd : Nat) (callback added : Bool)
    (kvstore : KVStore) (ls : List KvLabel)
    (hlegal : kvConnection.Legal (start loop fd callback added kvstore) ls) :
    ((∀ n ≤ ls.length, (kvConnection.run (start loop fd callback added kvstore)
          (ls.take n)).conn.writeBuffer.WF) ∧
        kvConnection.Each InRange (start loop fd callback added kvstore) ls) ↔
      kvConnection.Each Roomy (start loop fd callback added kvstore) ls := by
  have hstart : (start loop fd callback added kvstore).conn.writeBuffer.Fits :=
    Buffer.new_fits (by decide)
  have hstep : ∀ s l, s.conn.writeBuffer.Fits → kvConnection.enabled s l → s.Roomy l →
      (kvConnection.next s l).conn.writeBuffer.Fits := by
    intro s l hfits hl hroomy
    exact step_fits hfits hl hroomy
  have hagree : kvConnection.Each InRange (start loop fd callback added kvstore) ls ↔
      kvConnection.Each Roomy (start loop fd callback added kvstore) ls := by
    refine kvConnection.each_congr (I := fun s => s.conn.writeBuffer.Fits) hstart ?_ hstep ls
      hlegal
    intro s l hfits hl
    exact TcpConnection.each_inRange_iff hfits (Possible.legal hl)
  rw [hagree]
  constructor
  · intro h
    exact h.2
  · intro hroomy
    refine ⟨?_, hroomy⟩
    intro n _
    exact (kvConnection.run_invariant_each (I := fun s => s.conn.writeBuffer.Fits) hstart hstep
      _ (hlegal.take _ n) (hroomy.take _ n)).toWF

/-! ## Pipelined `PING`s to a peer that does not read -/

/-- The frame of a `PING`. -/
def ping : Bytes := packetBytes (requestPacket kPing [])

/-- The frame that answers it. -/
def pong : Bytes := packetBytes (replyPacket (requestPacket kPing []) kOk [])

/-- A turn while the peer takes nothing. -/
def stalledTurn : KvLabel := .turn (.error .eagain) ⟨true, true⟩

/-- A `PING` arrives and is answered. -/
def pingRound : List KvLabel := [.read ping, stalledTurn, stalledTurn]

/-- Activation, then `n` rounds. -/
def pingRun (n : Nat) : List KvLabel :=
  .call ⟨.activate, ⟨true, true⟩⟩ :: (List.replicate n pingRound).flatten

omit [Host] in
theorem pingRun_succ (n : Nat) : pingRun (n + 1) = pingRun n ++ pingRound := by
  unfold pingRun
  rw [List.replicate_succ', List.flatten_append, List.flatten_singleton, List.cons_append]

theorem kvVerdict_ping (kvstore : KVStore) :
    kvVerdict kvstore ping = .consume 24 kvstore [pong] := by
  rename_i host
  rcases host with ⟨_ | _⟩
  · rfl
  · rfl

/-- The bytes that arrive in a run. -/
def received (ls : List KvLabel) : Bytes :=
  ls.flatMap fun
    | .read segment => segment
    | _ => []

omit [Host] in
theorem received_pingRun (n : Nat) :
    received (pingRun n) = (List.replicate n ping).flatten := by
  have hround : received pingRound = ping := rfl
  induction n with
  | zero => rfl
  | succ n ih =>
      rw [pingRun_succ, received, List.flatMap_append, List.replicate_succ', List.flatten_append,
        List.flatten_singleton, ← ih, ← hround]
      rfl

/-- The response as a step of the connection. -/
def pongLabel : Label := ⟨.write pong (.error .eagain), ⟨true, true⟩⟩

/-- Between the rounds: the handler waits for a request, and `n` bytes wait to be sent. -/
structure Waiting (n : Nat) (s : KvConnection) : Prop where
  idle : s.running = false
  fits : s.handler.buffer.Fits
  unread : s.handler.buffer.unread = []
  owner : s.conn.channel.owner ≠ none
  status : s.conn.status = .kConnecting
  pending : s.conn.writeBuffer.Fits
  length : s.conn.writeBuffer.unread.length = n

variable {n : Nat}

/-- The segment is in the read buffer, and the handler starts. -/
theorem Waiting.read (h : s.Waiting n) :
    ∃ b : Buffer, b.Fits ∧ b.unread = ping ∧
      s.step (.read ping) = ⟨⟨b, s.handler.kvstore, s.handler.calls⟩, true, s.conn⟩ := by
  have hroom : s.handler.buffer.unread.length + ping.length < 2 ^ 31 := by
    rw [h.unread]
    decide
  obtain ⟨_, hfits, hunread⟩ := Buffer.readFd_spec h.fits hroom
  rw [h.unread, List.nil_append] at hunread
  refine ⟨_, hfits, hunread, ?_⟩
  show ite _ _ _ = _
  rw [if_neg (not_not.2 h.status)]

/-- A turn with a `PING` at the front makes one response. -/
theorem turn_ping (hfits : s.handler.buffer.Fits) (hunread : s.handler.buffer.unread = ping) :
    ∃ b : Buffer, b.Fits ∧ b.unread = [] ∧ s.labels stalledTurn = [pongLabel] ∧
      s.step stalledTurn =
        ⟨⟨b, s.handler.kvstore, [.write pong]⟩, true, s.conn.step pongLabel⟩ := by
  have hverdict := kvVerdict_ping s.handler.kvstore
  rw [← hunread] at hverdict
  obtain ⟨b, hturn, hbfits, hbunread⟩ :=
    onMessageTurn_consume (h := { s.handler with calls := [] }) hfits hverdict
  have hturned : s.turned = .inl ⟨b, s.handler.kvstore, [.write pong]⟩ := hturn
  have hlabels : s.labels stalledTurn = [pongLabel] := by
    rw [stalledTurn, labels_turn, hturned]
    rfl
  refine ⟨b, hbfits, ?_, hlabels, ?_⟩
  · rw [hbunread, hunread]
    rfl
  · show KvConnection.mk _ _ _ = _
    rw [hlabels, hturned]
    rfl

/-- A turn with nothing in the read buffer ends the run of the handler. -/
theorem turn_empty (hfits : s.handler.buffer.Fits) (hunread : s.handler.buffer.unread = []) :
    s.labels stalledTurn = [] ∧
      s.step stalledTurn = ⟨{ s.handler with calls := [] }, false, s.conn⟩ := by
  have hverdict : kvVerdict s.handler.kvstore s.handler.buffer.unread = .wait := by
    rw [hunread]
    exact (kvVerdict_wait_iff _ _).2 (by decide)
  have hturned : s.turned = .inr { s.handler with calls := [] } :=
    onMessageTurn_wait (h := { s.handler with calls := [] }) hfits hverdict
  have hlabels : s.labels stalledTurn = [] := by
    rw [stalledTurn, labels_turn, hturned]
    rfl
  constructor
  · exact hlabels
  · show KvConnection.mk _ _ _ = _
    rw [hlabels, hturned]
    rfl

/-- **One round** is one response to the connection. -/
theorem Waiting.round (h : s.Waiting n) :
    ∃ b : Buffer, b.Fits ∧ b.unread = [] ∧
      kvConnection.run s pingRound =
        ⟨⟨b, s.handler.kvstore, []⟩, false, s.conn.step pongLabel⟩ ∧
      kvConnection.Legal s pingRound ∧
      ∀ P, kvConnection.Each (EachCall P) s pingRound ↔ P s.conn pongLabel := by
  obtain ⟨b₁, hfits₁, hunread₁, hread⟩ := h.read
  obtain ⟨b, hfits, hunread, hlabels₁, hturn₁⟩ :=
    turn_ping (s := ⟨⟨b₁, s.handler.kvstore, s.handler.calls⟩, true, s.conn⟩) hfits₁ hunread₁
  obtain ⟨hlabels₂, hturn₂⟩ := turn_empty
    (s := ⟨⟨b, s.handler.kvstore, [.write pong]⟩, true, s.conn.step pongLabel⟩) hfits hunread
  have hnext₁ : kvConnection.next s (.read ping) = _ := hread
  have hnext₂ : kvConnection.next _ stalledTurn = _ := hturn₁
  have hnext₃ : kvConnection.next _ stalledTurn = _ := hturn₂
  refine ⟨b, hfits, hunread, ?_, ?_, ?_⟩
  · rw [pingRound, kvConnection.run_cons, hnext₁, kvConnection.run_cons, hnext₂,
      kvConnection.run_cons, hnext₃, kvConnection.run_nil]
  · rw [pingRound, kvConnection.legal_cons, hnext₁, kvConnection.legal_cons, hnext₂,
      kvConnection.legal_cons]
    refine ⟨⟨h.idle, by decide, by decide⟩, ⟨rfl, ?_⟩, ⟨rfl, ?_⟩, trivial⟩
    · show connection.Legal _ (labels _ stalledTurn)
      rw [hlabels₁]
      exact ⟨trivial, trivial⟩
    · show connection.Legal _ (labels _ stalledTurn)
      rw [hlabels₂]
      exact trivial
  · intro P
    rw [pingRound, kvConnection.each_cons, hnext₁, kvConnection.each_cons, hnext₂,
      kvConnection.each_cons, EachCall, EachCall, EachCall, hlabels₁, hlabels₂,
      connection.each_cons]
    simp [labels]

omit [Host] in
/-- The peer takes nothing of the response: it is buffered. -/
theorem Waiting.writeCall (h : s.Waiting n) :
    s.conn.writeCall pongLabel = some (.string pong) := by
  show (ite _ _ _ : Option WriteCall) = _
  rw [if_neg (not_or.2 ⟨h.owner, not_not.2 h.status⟩)]
  unfold TcpConnection.buffering
  split
  · rfl
  · rfl

omit [Host] in
theorem Waiting.step_writeBuffer (h : s.Waiting n) :
    (s.conn.step pongLabel).writeBuffer = (WriteCall.string pong).run s.conn.writeBuffer := by
  rcases s.conn.step_writeBuffer pongLabel with ⟨r, hop, _⟩ | hstep
  · cases hop
  · rw [hstep, h.writeCall]
    rfl

omit [Host] in
theorem Waiting.step_state (h : s.Waiting n) :
    (s.conn.step pongLabel).channel.owner = s.conn.channel.owner ∧
      (s.conn.step pongLabel).status = s.conn.status := by
  show (s.conn.write pong (.error .eagain) ⟨true, true⟩).channel.owner = _ ∧
    (s.conn.write pong (.error .eagain) ⟨true, true⟩).status = _
  unfold TcpConnection.write
  rw [if_neg h.owner]
  exact TcpConnection.writeInThread_retry h.status rfl pong _

omit [Host] in
theorem length_pong : pong.length = 24 := by decide

omit [Host] in
theorem Waiting.size (h : s.Waiting n) : s.conn.writeBuffer.size = n := by
  rw [Buffer.size_eq h.pending.toWF, h.length]

/-- **Step lemma**: with room for it, a round adds a response to the backlog. -/
theorem Waiting.next (h : s.Waiting n) (hroom : n + 24 < 2 ^ 31) :
    (kvConnection.run s pingRound).Waiting (n + 24) := by
  obtain ⟨b, hfits, hunread, hrun, _⟩ := h.round
  obtain ⟨howner, hstatus⟩ := h.step_state
  obtain ⟨hpending, hlength⟩ := WriteCall.run_spec (w := .string pong) h.pending
    (by rw [h.size]; exact hroom)
  rw [← h.step_writeBuffer] at hpending hlength
  rw [hrun]
  refine ⟨rfl, hfits, hunread, ?_, hstatus.trans h.status, hpending, ?_⟩
  · rw [howner]
    exact h.owner
  · rw [hlength, List.length_append, h.length]
    rfl

theorem each_activation (s : KvConnection) (P : TcpConnection → Label → Prop) :
    kvConnection.Each (EachCall P) s (pingRun 0) ↔ P s.conn ⟨.activate, ⟨true, true⟩⟩ := by
  rw [pingRun, kvConnection.each_cons, EachCall, labels, connection.each_cons]
  simp

omit [Host] in
theorem pongLabel_short : writesAtMost 24 pongLabel := by
  intro message r hop
  cases hop
  exact Nat.le_of_eq length_pong

section Rounds

variable (loop : LoopId) (fd : Nat) (callback added : Bool) (kvstore : KVStore)

theorem waiting_activated :
    (kvConnection.run (start loop fd callback added kvstore) (pingRun 0)).Waiting 0 := by
  have hfits : (Buffer.new 1024).Fits := Buffer.new_fits (by decide)
  have hunread : (Buffer.new 1024).unread = [] := Buffer.unread_new 1024
  cases added with
  | true | false =>
      refine ⟨rfl, hfits, hunread, ?_, rfl, hfits, congrArg List.length hunread⟩
      exact (Channel.setActive_owner ..).trans_ne (Option.some_ne_none loop)

/-- **Run lemma**: while there is room, every round adds a response to the backlog. -/
theorem waiting_pingRun (n : Nat) (hroom : 24 * n < 2 ^ 31) :
    kvConnection.Legal (start loop fd callback added kvstore) (pingRun n) ∧
      (kvConnection.run (start loop fd callback added kvstore) (pingRun n)).Waiting (24 * n) ∧
      kvConnection.Each Roomy (start loop fd callback added kvstore) (pingRun n) ∧
      kvConnection.Each (EachCall fun _ => writesAtMost 24)
        (start loop fd callback added kvstore) (pingRun n) := by
  induction n with
  | zero =>
      have hactivated := each_activation (start loop fd callback added kvstore)
      refine ⟨⟨⟨.inl rfl, rfl, ⟨trivial, trivial⟩⟩, trivial⟩,
        waiting_activated loop fd callback added kvstore, (hactivated _).2 ?_, (hactivated _).2 ?_⟩
      · intro w hw
        cases hw
      · intro message r hop
        cases hop
  | succ n ih =>
      obtain ⟨hlegal, hwaiting, hroomy, hshort⟩ := ih (by omega)
      obtain ⟨_, _, _, _, hround, heach⟩ := hwaiting.round
      rw [pingRun_succ, kvConnection.legal_append, kvConnection.run_append,
        kvConnection.each_append, kvConnection.each_append, heach]
      refine ⟨⟨hlegal, hround⟩, hwaiting.next (by omega), ⟨hroomy, (heach _).2 ?_⟩, hshort,
        pongLabel_short⟩
      intro w hw
      rw [hwaiting.writeCall, Option.mem_some_iff] at hw
      rw [← hw, hwaiting.size]
      show 24 * n + pong.length < 2 ^ 31
      rw [length_pong]
      omega

/-- **The backlog overflows**: the first `PING` too many drives the write cursor out of `int`. -/
theorem pingRun_overflows {n : Nat} (hroom : 24 * n < 2 ^ 31 + 24) (hover : 2 ^ 31 ≤ 24 * n) :
    kvConnection.Legal (start loop fd callback added kvstore) (pingRun n) ∧
      kvConnection.Each (EachCall fun _ => writesAtMost 24)
        (start loop fd callback added kvstore) (pingRun n) ∧
      ¬kvConnection.Each InRange (start loop fd callback added kvstore) (pingRun n) ∧
      (kvConnection.run (start loop fd callback added kvstore)
        (pingRun n)).conn.writeBuffer.writeptr < 0 := by
  obtain ⟨k, rfl⟩ : ∃ k, n = k + 1 := ⟨n - 1, by omega⟩
  obtain ⟨hlegal, hwaiting, _, hshort⟩ :=
    waiting_pingRun loop fd callback added kvstore k (by omega)
  obtain ⟨_, _, _, hrun, hround, heach⟩ := hwaiting.round
  have hsize := hwaiting.size
  rw [pingRun_succ, kvConnection.legal_append, kvConnection.run_append,
    kvConnection.each_append, kvConnection.each_append]
  have hlen : (WriteCall.string pong).bytes.length = 24 := length_pong
  refine ⟨⟨hlegal, hround⟩, ⟨hshort, (heach _).2 pongLabel_short⟩, ?_, ?_⟩
  · rintro ⟨_, hlast⟩
    have hin := (heach _).1 hlast _ hwaiting.writeCall
    rw [WriteCall.inRange_iff hwaiting.pending, hsize] at hin
    omega
  · rw [hrun]
    show (TcpConnection.step _ pongLabel).writeBuffer.writeptr < 0
    rw [hwaiting.step_writeBuffer]
    exact WriteCall.writeptr_neg hwaiting.pending (by omega) (by omega) (by omega)

end Rounds

end KvConnection

end Runs

open KvConnection

/-- One `PING`, whose response waits. -/
theorem cursors_in_range_iff_ping :
    let _ : Host := ⟨false⟩
    kvConnection.Each InRange (start 0 7 true true KVStore.new) (pingRun 1) := by
  intro _
  obtain ⟨hlegal, _, hroomy, _⟩ := waiting_pingRun 0 7 true true KVStore.new 1 (by decide)
  exact ((cursors_in_range_iff 0 7 true true KVStore.new (pingRun 1) hlegal).2 hroomy).2

/-- 89478486 pipelined `PING`s to a peer that never reads, so that every write returns `EAGAIN`:
every response has 24 bytes, and the last one takes the write cursor out of `int`. -/
theorem pings_overflow :
    let _ : Host := ⟨false⟩
    kvConnection.Legal (start 0 7 true true KVStore.new) (pingRun 89478486) ∧
      received (pingRun 89478486) = (List.replicate 89478486 ping).flatten ∧
      kvConnection.Each (EachCall fun _ => writesAtMost (24 + 4 + kMaxValueLength.toNat))
        (start 0 7 true true KVStore.new) (pingRun 89478486) ∧
      ¬kvConnection.Each InRange (start 0 7 true true KVStore.new) (pingRun 89478486) ∧
      (kvConnection.run (start 0 7 true true KVStore.new)
        (pingRun 89478486)).conn.writeBuffer.writeptr < 0 := by
  intro _
  obtain ⟨hlegal, hshort, hrange, hwriteptr⟩ :=
    pingRun_overflows 0 7 true true KVStore.new (n := 89478486) (by decide) (by decide)
  have hbound : 24 ≤ 24 + 4 + kMaxValueLength.toNat :=
    Nat.le_add_right_of_le (Nat.le_add_right 24 4)
  refine ⟨hlegal, received_pingRun 89478486, ?_, hrange, hwriteptr⟩
  intro n hn k hk
  exact writesAtMost_mono hbound (hshort n hn k hk)

end Adachi.Kv
