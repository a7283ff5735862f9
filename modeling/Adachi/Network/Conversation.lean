import Adachi.Io.Capacity
import Adachi.Lib.Framer
import Adachi.Network.SentOrder

/-!
# A connection and the reader of its messages

What an on-message handler and its connection do together, stated without the handler: a framer
reads the bytes that have arrived, one verdict a turn, and the connection is asked to write each
of its outputs.  Between the turns of a run of the handler other threads can come in.  That the
handlers of the sources behave so is shown where they are modelled.

## Main results

* `talks_run`: in every run the framer has come to the unread bytes by consuming, and what has
  been sent is the beginning of what it put out on the way.
* `Follows.talked`, `Follows.bounded`: the same of a handler, and that there is room for what it
  buffers as long as what is not answered yet is short.
-/

namespace Adachi.Network

open Adachi.Io Framer

/-! ## Requests to close -/

namespace TcpConnection

section CloseRequested

variable (c : TcpConnection) (ctl : EpollCtl)

@[simp] theorem unsetWrite_closeRequested :
    (c.unsetWrite ctl).closeRequested = c.closeRequested := by
  obtain ⟨channel, _, heq⟩ := c.unsetWrite_eq ctl
  rw [heq]

@[simp] theorem closeInThread_closeRequested :
    (c.closeInThread ctl).closeRequested = c.closeRequested := by
  unfold closeInThread
  split
  · rfl
  · split
    · rfl
    · rfl

@[simp] theorem close_closeRequested : (c.close ctl).closeRequested = true := by
  unfold close
  split
  · assumption
  · dsimp only
    split
    · rfl
    · rw [closeInThread_closeRequested]

@[simp] theorem activateInThread_closeRequested :
    (c.activateInThread ctl).closeRequested = c.closeRequested := by
  unfold activateInThread
  split
  · rfl
  · rfl

@[simp] theorem putMessage_closeRequested (message : Bytes) (r : SysResult Nat) :
    (c.putMessage message r ctl).closeRequested = c.closeRequested := by
  unfold putMessage
  split
  · cases r with
    | ok n =>
        dsimp only
        split
        · rfl
        · rfl
    | error e =>
        dsimp only
        split
        · rw [closeInThread_closeRequested, emit_closeRequested]
        · rfl
  · rfl

@[simp] theorem writeInThread_closeRequested (message : Bytes) (r : SysResult Nat) :
    (c.writeInThread message r ctl).closeRequested = c.closeRequested := by
  unfold writeInThread
  split
  · rfl
  · dsimp only
    split
    · rw [setActive_closeRequested, putMessage_closeRequested]
    · exact putMessage_closeRequested ..

@[simp] theorem flushed_closeRequested :
    (c.flushed ctl).closeRequested = c.closeRequested := by
  unfold flushed
  dsimp only
  split
  · exact unsetWrite_closeRequested c ctl
  · exact unsetWrite_closeRequested c ctl

variable {c}

theorem flush_closeRequested (h : c.closeRequested = true) (r : SysResult Nat) :
    (c.flush r ctl).closeRequested = true := by
  cases r with
  | ok n => exact h
  | error e =>
      rw [flush_error]
      split
      · exact close_closeRequested ..
      · exact h

/-- A request to close is never withdrawn. -/
theorem step_closeRequested (h : c.closeRequested = true) (l : Label) :
    (c.step l).closeRequested = true := by
  obtain ⟨op, ctl⟩ := l
  cases op with
  | activate =>
      change (c.activate ctl).closeRequested = true
      unfold activate
      split
      · exact h
      · rwa [activateInThread_closeRequested]
  | activateInThread => exact (c.activateInThread_closeRequested ctl).trans h
  | write message r =>
      change (c.write message r ctl).closeRequested = true
      unfold write
      split
      · exact h
      · rwa [writeInThread_closeRequested]
  | writeInThread message r => exact (c.writeInThread_closeRequested ctl message r).trans h
  | writeFd r =>
      change (c.writeFd r ctl).closeRequested = true
      unfold writeFd
      split
      · exact h
      · dsimp only
        split
        · rw [flushed_closeRequested, flush_closeRequested ctl h]
        · exact flush_closeRequested ctl h r
  | close => exact c.close_closeRequested ctl
  | requestClose => rfl
  | closeInThread => exact (c.closeInThread_closeRequested ctl).trans h

theorem run_closeRequested (h : c.closeRequested = true) (ls : List Label) :
    (connection.run c ls).closeRequested = true := by
  induction ls generalizing c with
  | nil => exact h
  | cons l ls ih => exact ih (step_closeRequested h l)

end CloseRequested

/-! ## A series of writes -/

variable {c : TcpConnection} {accepted : Bytes}

theorem Sound.run (h : c.Sound) (ls : List Label) : (connection.run c ls).Sound := by
  induction ls generalizing c with
  | nil => exact h
  | cons l ls ih => exact ih (h.step l)

/-- A connection that is no longer connecting does not come back. -/
theorem Sound.not_connecting_step (h : c.Sound) (hs : c.status ≠ .kConnecting) (l : Label) :
    (c.step l).status ≠ .kConnecting := by
  by_cases hdone : c.status = .kDisConnected
  · obtain ⟨closeRequested, hstep⟩ := step_disconnected hdone l
    rw [hstep]
    exact hs
  · intro hback
    have hforward : c.status.rank ≤ (c.step l).status.rank := (h.advances_step hdone l).forward
    rw [hback] at hforward
    cases hstatus : c.status with
    | kConnecting => exact hs hstatus
    | kDisConnecting =>
        rw [hstatus] at hforward
        exact absurd hforward (by decide)
    | kDisConnected => exact hdone hstatus

theorem Sound.not_connecting_run (h : c.Sound) (hs : c.status ≠ .kConnecting)
    (ls : List Label) :
    (connection.run c ls).status ≠ .kConnecting ∧ connection.collect accepts c ls = [] := by
  induction ls generalizing c with
  | nil => exact ⟨hs, rfl⟩
  | cons l ls ih =>
      obtain ⟨hrest, hnone⟩ := ih (h.step l) (h.not_connecting_step hs l)
      refine ⟨hrest, ?_⟩
      show c.accepts l ++ connection.collect accepts (c.step l) ls = []
      rw [accepts_of_not_connecting hs, hnone]
      rfl

/-- The messages that a turn of a handler writes -/
def writeLabels (r : SysResult Nat) (ctl : EpollCtl) (out : List Bytes) : List Label :=
  out.map fun message => ⟨.write message r, ctl⟩

/-- Of messages written one after the other the first ones are accepted, and all if the
connection is still open. -/
theorem Sound.collect_writes (h : c.Sound) (r : SysResult Nat) (ctl : EpollCtl)
    (out : List Bytes) :
    connection.collect accepts c (writeLabels r ctl out) <+: out.flatten ∧
      ((connection.run c (writeLabels r ctl out)).status = .kConnecting →
        connection.collect accepts c (writeLabels r ctl out) = out.flatten) := by
  induction out generalizing c with
  | nil => exact ⟨List.prefix_rfl, fun _ => rfl⟩
  | cons message out ih =>
      by_cases hs : c.status = .kConnecting
      · have howner := (h.connected (ne_disconnected_of_connecting hs)).1
        have haccepts : c.accepts ⟨.write message r, ctl⟩ = message :=
          if_pos ⟨Option.isSome_iff_ne_none.1 howner, hs⟩
        obtain ⟨hfront, hall⟩ := ih (h.step ⟨.write message r, ctl⟩)
        show c.accepts _ ++ _ <+: _ ∧ (_ → c.accepts _ ++ _ = _)
        rw [haccepts, List.flatten_cons]
        refine ⟨(List.prefix_append_right_inj message).2 hfront, ?_⟩
        intro hopen
        exact congrArg (message ++ ·) (hall hopen)
      · obtain ⟨hclosed, hnone⟩ := h.not_connecting_run hs (writeLabels r ctl (message :: out))
        rw [hnone]
        exact ⟨List.nil_prefix, fun hopen => absurd hopen hclosed⟩

/-! ## Room from the length of the output -/

/-- A step adds no more to the write buffer than it accepts. -/
theorem length_writeCall {l : Label} {w : WriteCall} (hw : w ∈ c.writeCall l) :
    w.bytes.length ≤ (c.accepts l).length ∧ c.status = .kConnecting := by
  have hbuffering : ∀ (message : Bytes) (r : SysResult Nat), w ∈ c.buffering message r →
      w.bytes.length ≤ message.length := by
    intro message r hw
    unfold buffering at hw
    split at hw
    · cases r with
      | ok n =>
          dsimp only at hw
          split at hw
          · obtain rfl := Option.mem_some_iff.1 hw
            show ((message.drop n).take _).length ≤ _
            rw [List.length_take, List.length_drop]
            omega
          · cases hw
      | error e =>
          dsimp only at hw
          split at hw
          · cases hw
          · obtain rfl := Option.mem_some_iff.1 hw
            exact Nat.le_refl _
    · obtain rfl := Option.mem_some_iff.1 hw
      exact Nat.le_refl _
  obtain ⟨op, ctl⟩ := l
  unfold writeCall at hw
  cases op with
  | write message r =>
      dsimp only at hw
      split at hw
      · cases hw
      · rename_i hopen
        rw [not_or, not_not] at hopen
        rw [show c.accepts ⟨.write message r, ctl⟩ = message from if_pos hopen]
        exact ⟨hbuffering message r hw, hopen.2⟩
  | writeInThread message r =>
      dsimp only at hw
      split at hw
      · cases hw
      · rename_i hopen
        rw [not_not] at hopen
        rw [show c.accepts ⟨.writeInThread message r, ctl⟩ = message from if_pos hopen]
        exact ⟨hbuffering message r hw, hopen⟩
  | activate | activateInThread | writeFd | close | requestClose | closeInThread => cases hw

/-- What is sent stays sent. -/
theorem Sound.sent_step (h : c.Sound) (l : Label) :
    (sentBytes c.effects).length ≤ (sentBytes (c.step l).effects).length := by
  by_cases hs : c.status = .kDisConnected
  · obtain ⟨closeRequested, hstep⟩ := step_disconnected hs l
    rw [hstep]
  · exact ((h.advances_step hs l).before (h.unclosed hs)).2.length_le

variable {limit : Nat}

/-- The write buffer is asked for no more than is then accepted and not sent. -/
theorem Ordered.asked_le (h : c.Ordered accepted) {l : Label}
    (hshort : accepted.length + (c.accepts l).length ≤ limit + (sentBytes c.effects).length)
    {w : WriteCall} (hw : w ∈ c.writeCall l) :
    c.writeBuffer.unread.length + w.bytes.length ≤ limit := by
  obtain ⟨hle, hs⟩ := length_writeCall hw
  have hqueue := congrArg List.length (h.queue (ne_disconnected_of_connecting hs))
  rw [List.length_append] at hqueue
  omega

theorem Ordered.hasRoom (h : c.Ordered accepted) (hlimit : limit < 2 ^ 31) {l : Label}
    (hshort : accepted.length + (c.accepts l).length ≤ limit + (sentBytes c.effects).length) :
    c.HasRoom l where
  roomy := by
    intro w hw
    have hle := h.asked_le hshort hw
    rw [Buffer.size_eq h.fits.toWF]
    omega
  short := by
    have hsent := h.sent.length_le
    omega

/-- The storage of the write buffer grows to what is accepted and not sent. -/
theorem Ordered.capacity_step (h : c.Ordered accepted) (hlimit : limit < 2 ^ 31) {l : Label}
    (hshort : accepted.length + (c.accepts l).length ≤ limit + (sentBytes c.effects).length) :
    (c.step l).writeBuffer.capacity ≤ max c.writeBuffer.capacity limit := by
  rcases c.step_writeBuffer l with ⟨r, _, hstep⟩ | hstep
  · rw [hstep, Buffer.capacity_writeFd]
    exact Nat.le_max_left ..
  · rw [hstep]
    cases hcall : c.writeCall l with
    | none => exact Nat.le_max_left ..
    | some w =>
        have hle := h.asked_le hshort hcall
        show (w.run c.writeBuffer).capacity ≤ _
        rw [WriteCall.run_eq_writeBytes, Buffer.capacity_writeBytes (fun _ _ => w.add_of_lt) h.fits
          (by omega)]
        omega

/-- **Room for what is not sent.**  As long as the bytes accepted in a run are at most `limit` more
than those sent before it, there is room for what the connection buffers, whatever `write(2)`
takes, and `limit` bytes of storage are enough. -/
theorem Ordered.bounded (h : c.Ordered accepted) (hsound : c.Sound) (hlimit : limit < 2 ^ 31)
    {ls : List Label} (hlegal : connection.Legal c ls)
    (hshort : accepted.length + (connection.collect accepts c ls).length ≤
      limit + (sentBytes c.effects).length) :
    connection.Each HasRoom c ls ∧
      (connection.run c ls).writeBuffer.capacity ≤ max c.writeBuffer.capacity limit := by
  induction ls generalizing c accepted with
  | nil => exact ⟨connection.each_nil c, Nat.le_max_left ..⟩
  | cons l ls ih =>
      have hcollect : connection.collect accepts c (l :: ls) =
          c.accepts l ++ connection.collect accepts (c.step l) ls := rfl
      rw [hcollect, List.length_append] at hshort
      have hfirst : accepted.length + (c.accepts l).length ≤
          limit + (sentBytes c.effects).length := by omega
      have hroom := h.hasRoom hlimit hfirst
      have hcapacity := h.capacity_step hlimit hfirst
      have hsent := hsound.sent_step l
      have hrest := ih (h.step hsound hlegal.1 hroom) (hsound.step l) hlegal.2 (by
        rw [List.length_append]
        omega)
      rw [connection.each_cons]
      refine ⟨⟨hroom, hrest.1⟩, hrest.2.trans ?_⟩
      change max (c.step l).writeBuffer.capacity limit ≤ _
      omega

/-! ## A connection that has been asked to close -/

/-- A connection that has been asked to close has left `kConnecting`. -/
def Asked (c : TcpConnection) : Prop := c.closeRequested = true → c.status ≠ .kConnecting

theorem closeInThread_status (c : TcpConnection) (ctl : EpollCtl) :
    (c.closeInThread ctl).status ≠ .kConnecting := by
  unfold closeInThread
  split
  · rename_i hs
    rw [hs]
    exact nofun
  · split
    · exact nofun
    · exact nofun

theorem Sound.close_asked (h : c.Sound) (hasked : c.Asked) (ctl : EpollCtl) :
    (c.close ctl).status ≠ .kConnecting := by
  unfold TcpConnection.close
  split
  · rename_i hrequested
    exact hasked hrequested
  · dsimp only
    split
    · rename_i howner
      rw [h.disconnected_of_owner howner]
      exact nofun
    · exact closeInThread_status _ ctl

theorem Asked.flushed (h : c.Asked) (ctl : EpollCtl) : (c.flushed ctl).Asked := by
  intro hrequested
  rw [flushed_closeRequested] at hrequested
  unfold TcpConnection.flushed
  dsimp only
  split
  · exact nofun
  · rw [unsetWrite_status]
    exact h hrequested

/-- Every step keeps this, but for a `Close` on another thread, which leaves the rest to a
task. -/
theorem Sound.asked_step (h : c.Sound) (hasked : c.Asked) {l : Label}
    (hown : l.op ≠ .requestClose) : (c.step l).Asked := by
  by_cases hrequested : c.closeRequested = true
  · exact fun _ => h.not_connecting_step (hasked hrequested) l
  have hkept : ∀ c' : TcpConnection, c'.closeRequested = c.closeRequested → c'.Asked :=
    fun c' heq hrequested' => absurd (heq ▸ hrequested') hrequested
  obtain ⟨op, ctl⟩ := l
  cases op with
  | activate =>
      apply hkept
      change (c.activate ctl).closeRequested = _
      rw [h.activate_eq, activateInThread_closeRequested]
  | activateInThread => exact hkept _ (c.activateInThread_closeRequested ctl)
  | write message r =>
      apply hkept
      change (c.write message r ctl).closeRequested = _
      rw [h.write_eq, writeInThread_closeRequested]
  | writeInThread message r => exact hkept _ (c.writeInThread_closeRequested ctl message r)
  | closeInThread => exact hkept _ (c.closeInThread_closeRequested ctl)
  | close => exact fun _ => h.close_asked hasked ctl
  | requestClose => exact absurd rfl hown
  | writeFd r =>
      have hflush : (c.flush r ctl).Asked := by
        cases r with
        | ok n => exact hkept _ rfl
        | error e =>
            rw [TcpConnection.flush_error]
            split
            · have hfailed : (c.emit [.writeFailed e]).Sound := h.emit (by simp)
              exact fun _ => hfailed.close_asked hasked ctl
            · exact hkept _ rfl
      change (c.writeFd r ctl).Asked
      unfold TcpConnection.writeFd
      split
      · exact hasked
      · dsimp only
        split
        · exact hflush.flushed ctl
        · exact hflush

theorem Sound.asked_run (h : c.Sound) (hasked : c.Asked) {ls : List Label}
    (hown : ∀ l ∈ ls, l.op ≠ .requestClose) :
    (connection.run c ls).Sound ∧ (connection.run c ls).Asked := by
  induction ls generalizing c with
  | nil => exact ⟨h, hasked⟩
  | cons l ls ih =>
      exact ih (h.step l) (h.asked_step hasked (hown l List.mem_cons_self))
        fun k hk => hown k (List.mem_cons_of_mem _ hk)

end TcpConnection

/-! ## The machine -/

/-- The bytes that have arrived and are not consumed, whether the handler is under way, and the
connection that it writes to. -/
structure Conversation where
  unread : Bytes
  running : Bool
  conn : TcpConnection

/-- A `Read` that gets a segment and starts the handler, a turn of the handler in which every
`write(2)` returns `r`, a call that the handler does not make, or something that does not touch
the connection. -/
inductive TalkStep where
  | read (segment : Bytes)
  | turn (r : SysResult Nat) (ctl : EpollCtl)
  | call (l : Label)
  | other

/-- What a verdict makes the handler do to the connection. -/
def verdictLabels (r : SysResult Nat) (ctl : EpollCtl) : Verdict Unit Bytes → List Label
  | .wait => []
  | .halt => [⟨.close, ctl⟩]
  | .consume _ _ out => TcpConnection.writeLabels r ctl out

/-- What a verdict leaves of the bytes. -/
def verdictRest (unread : Bytes) : Verdict Unit Bytes → Bytes
  | .consume n _ _ => unread.drop n
  | _ => unread

/-- The handler's loop takes another turn. -/
def verdictAgain : Verdict Unit Bytes → Bool
  | .consume _ _ _ => true
  | _ => false

namespace Conversation

section Steps

variable (F : Framer UInt8 Unit Bytes) (s : Conversation)

def labels : TalkStep → List Label
  | .turn r ctl => verdictLabels r ctl (F.verdict () s.unread)
  | .call l => [l]
  | _ => []

def step (l : TalkStep) : Conversation :=
  match l with
  | .read segment =>
      if s.conn.status ≠ .kConnecting then s
      else { s with unread := s.unread ++ segment, running := true }
  | .turn _ _ =>
      { unread := verdictRest s.unread (F.verdict () s.unread)
        running := verdictAgain (F.verdict () s.unread)
        conn := connection.run s.conn (s.labels F l) }
  | .call _ => { s with conn := connection.run s.conn (s.labels F l) }
  | .other => s

/-- A read waits for the handler to return, and only the handler writes. -/
def Possible : TalkStep → Prop
  | .read _ => s.running = false
  | .turn r ctl => s.running = true ∧ connection.Legal s.conn (s.labels F (.turn r ctl))
  | .call l => s.conn.accepts l = [] ∧ connection.Legal s.conn [l]
  | .other => True

/-- The bytes that a step reads -/
def heard : TalkStep → Bytes
  | .read segment => if s.conn.status ≠ .kConnecting then [] else segment
  | _ => []

/-- There is room for everything that the step adds to the write buffer. -/
def HasRoom (l : TalkStep) : Prop := connection.Each TcpConnection.HasRoom s.conn (s.labels F l)

end Steps

/-- A new connection -/
def start (loop : LoopId) (fd size : Nat) (callback added : Bool) : Conversation :=
  ⟨[], false, TcpConnection.new loop fd size callback added⟩

end Conversation

def conversation (F : Framer UInt8 Unit Bytes) : Machine Conversation TalkStep where
  next s l := s.step F l
  enabled s l := s.Possible F l

/-! ## Runs -/

section Runs

variable {F : Framer UInt8 Unit Bytes} {s : Conversation} {stream : Bytes} {out : List Bytes}

/-- The connection is driven by the steps of the conversation. -/
theorem conversation_drives (F : Framer UInt8 Unit Bytes) :
    (conversation F).Drives connection Conversation.conn (Conversation.labels F) where
  next s l := by
    cases l with
    | read segment =>
        show (ite _ _ _ : Conversation).conn = s.conn
        split
        · rfl
        · rfl
    | turn r ctl => rfl
    | call l => rfl
    | other => rfl
  legal s l h := by
    cases l with
    | read segment => exact connection.legal_nil s.conn
    | turn r ctl => exact h.2
    | call l => exact h.2
    | other => exact connection.legal_nil s.conn

/-- The framer has read `stream` as far as the unread bytes, putting out `out`, of which the
connection has accepted `accepted`. -/
structure Talks (F : Framer UInt8 Unit Bytes) (stream : Bytes) (out : List Bytes)
    (accepted : Bytes) (s : Conversation) : Prop where
  sound : s.conn.Sound
  ordered : s.conn.Ordered accepted
  consumes : F.Consumes () stream out () s.unread
  front : accepted <+: out.flatten
  all : s.conn.status = .kConnecting → accepted = out.flatten
  stuck : s.running = false → ∀ n next more, F.verdict () s.unread ≠ .consume n next more
  refused : s.running = false → F.verdict () s.unread = .halt → s.conn.closeRequested = true

variable {accepted : Bytes}

/-- What the step has the connection accept -/
def Conversation.said (F : Framer UInt8 Unit Bytes) (s : Conversation) (l : TalkStep) : Bytes :=
  connection.collect TcpConnection.accepts s.conn (s.labels F l)

/-- The connection's part of a step -/
theorem Talks.conn_step (h : Talks F stream out accepted s) {l : TalkStep}
    (hpossible : s.Possible F l) (hroom : s.HasRoom F l) :
    (s.step F l).conn.Sound ∧ (s.step F l).conn.Ordered (accepted ++ s.said F l) := by
  rw [show (s.step F l).conn = connection.run s.conn (s.labels F l) from
    (conversation_drives F).next s l]
  exact h.ordered.run h.sound ((conversation_drives F).legal s l hpossible) hroom

/-- What is accepted stays the beginning of what is put out. -/
theorem Talks.front_append (h : Talks F stream out accepted s) {more : List Bytes}
    {said : Bytes} (hsaid : said <+: more.flatten)
    (hclosed : s.conn.status ≠ .kConnecting → said = []) :
    accepted ++ said <+: (out ++ more).flatten := by
  rw [List.flatten_append]
  by_cases hs : s.conn.status = .kConnecting
  · rw [h.all hs]
    exact (List.prefix_append_right_inj _).2 hsaid
  · rw [hclosed hs, List.append_nil]
    exact h.front.trans (List.prefix_append ..)

/-- **Turn lemma.** -/
theorem Talks.turn (h : Talks F stream out accepted s) {r : SysResult Nat} {ctl : EpollCtl}
    (hpossible : s.Possible F (.turn r ctl)) (hroom : s.HasRoom F (.turn r ctl)) :
    ∃ more, Talks F stream (out ++ more) (accepted ++ s.said F (.turn r ctl))
      (s.step F (.turn r ctl)) := by
  obtain ⟨hsound, hordered⟩ := h.conn_step hpossible hroom
  have hlabels : s.labels F (.turn r ctl) = verdictLabels r ctl (F.verdict () s.unread) := rfl
  have hstep : s.step F (.turn r ctl) = ⟨verdictRest s.unread (F.verdict () s.unread),
      verdictAgain (F.verdict () s.unread),
      connection.run s.conn (verdictLabels r ctl (F.verdict () s.unread))⟩ := rfl
  have hsaid : s.said F (.turn r ctl) = connection.collect TcpConnection.accepts s.conn
      (verdictLabels r ctl (F.verdict () s.unread)) := rfl
  rw [hstep] at hsound hordered ⊢
  cases hverdict : F.verdict () s.unread with
  | wait =>
      rw [hverdict] at hsound hordered hsaid
      rw [hsaid] at hordered ⊢
      refine ⟨[], hsound, hordered, ?_, ?_, ?_, ?_, ?_⟩
      · rw [List.append_nil]
        exact h.consumes
      · exact h.front_append List.prefix_rfl fun _ => rfl
      · intro hs
        rw [List.append_nil, h.all hs]
        exact List.append_nil _
      · intro _ n next more hconsume
        exact nomatch hverdict.symm.trans hconsume
      · intro _ hhalt
        exact nomatch hverdict.symm.trans hhalt
  | halt =>
      rw [hverdict] at hsound hordered hsaid
      have hnone : connection.collect TcpConnection.accepts s.conn
          (verdictLabels r ctl (.halt : Verdict Unit Bytes)) = [] := rfl
      rw [hsaid, hnone] at hordered ⊢
      refine ⟨[], hsound, hordered, ?_, ?_, ?_, ?_, ?_⟩
      · rw [List.append_nil]
        exact h.consumes
      · exact h.front_append List.prefix_rfl fun _ => rfl
      · intro hs
        rw [List.append_nil, List.append_nil]
        apply h.all
        by_contra hclosed
        exact h.sound.not_connecting_step hclosed ⟨.close, ctl⟩ hs
      · intro _ n next more hconsume
        exact nomatch hverdict.symm.trans hconsume
      · intro _ _
        exact TcpConnection.close_closeRequested ..
  | consume n next more =>
      rw [hverdict] at hsound hordered hsaid
      have hwrites := h.sound.collect_writes r ctl more
      change _ = connection.collect _ _ (TcpConnection.writeLabels r ctl more) at hsaid
      change (connection.run s.conn (TcpConnection.writeLabels r ctl more)).Sound at hsound
      rw [← hsaid] at hwrites
      refine ⟨more, hsound, hordered, h.consumes.step hverdict, ?_, ?_, nofun, nofun⟩
      · refine h.front_append hwrites.1 ?_
        intro hs
        rw [hsaid]
        exact (h.sound.not_connecting_run hs _).2
      · intro hs
        change (connection.run s.conn (TcpConnection.writeLabels r ctl more)).status = _ at hs
        have hbefore : s.conn.status = .kConnecting := by
          by_contra hclosed
          exact (h.sound.not_connecting_run hclosed _).1 hs
        rw [List.flatten_append, h.all hbefore, hwrites.2 hs]

/-- **Step lemma.** -/
theorem Talks.step (h : Talks F stream out accepted s) {l : TalkStep}
    (hpossible : s.Possible F l) (hroom : s.HasRoom F l) :
    ∃ more, Talks F (stream ++ s.heard l) (out ++ more) (accepted ++ s.said F l)
      (s.step F l) := by
  cases l with
  | turn r ctl =>
      rw [show s.heard (.turn r ctl) = [] from rfl, List.append_nil]
      exact h.turn hpossible hroom
  | read segment =>
      refine ⟨[], ?_⟩
      rw [show s.said F (.read segment) = [] from rfl, List.append_nil, List.append_nil]
      show Talks F (stream ++ ite _ _ _) out accepted (ite _ _ _)
      split
      · rw [List.append_nil]
        exact h
      · exact ⟨h.sound, h.ordered, h.consumes.append segment, h.front, h.all, nofun, nofun⟩
  | call l =>
      obtain ⟨hsound, hordered⟩ := h.conn_step hpossible hroom
      refine ⟨[], ?_⟩
      have hnone : s.said F (.call l) = [] := by
        show s.conn.accepts l ++ [] = []
        rw [hpossible.1]
        rfl
      rw [hnone, List.append_nil] at hordered ⊢
      rw [show s.heard (.call l) = [] from rfl, List.append_nil, List.append_nil]
      refine ⟨hsound, hordered, h.consumes, h.front, ?_, h.stuck, ?_⟩
      · intro hs
        apply h.all
        by_contra hclosed
        exact h.sound.not_connecting_step hclosed l hs
      · intro hidle hhalt
        exact TcpConnection.step_closeRequested (h.refused hidle hhalt) l
  | other =>
      refine ⟨[], ?_⟩
      rw [show s.said F .other = [] from rfl, show s.heard .other = [] from rfl,
        List.append_nil, List.append_nil, List.append_nil]
      exact h

theorem talks_start (F : Framer UInt8 Unit Bytes) (loop : LoopId) (fd : Nat) {size : Nat}
    (hsize : size < 2 ^ 31) (callback added : Bool) :
    Talks F [] [] [] (Conversation.start loop fd size callback added) where
  sound := TcpConnection.sound_new loop fd size callback added
  ordered := TcpConnection.ordered_new loop fd hsize callback added
  consumes := .refl
  front := List.nil_prefix
  all _ := rfl
  stuck _ _ _ _ hconsume := nomatch (F.verdict_nil ()).symm.trans hconsume
  refused _ hhalt := nomatch (F.verdict_nil ()).symm.trans hhalt

/-- **Run lemma.**  In every run with room for what is buffered, whatever `write(2)` returns and
whatever else happens to the connection: the framer has read what arrived as far as the unread
bytes, and what it put out on the way is accepted as long as the connection is open. -/
theorem Talks.run (h : Talks F stream out accepted s) {ls : List TalkStep}
    (hlegal : (conversation F).Legal s ls)
    (hroom : (conversation F).Each (fun s l => s.HasRoom F l) s ls) :
    ∃ more, Talks F (stream ++ (conversation F).collect Conversation.heard s ls) (out ++ more)
      (accepted ++ (conversation F).collect (fun s l => s.said F l) s ls)
      ((conversation F).run s ls) := by
  induction ls generalizing s stream out accepted with
  | nil =>
      refine ⟨[], ?_⟩
      rw [show (conversation F).collect Conversation.heard s [] = [] from rfl,
        show (conversation F).collect (fun s l => s.said F l) s [] = [] from rfl,
        List.append_nil, List.append_nil, List.append_nil]
      exact h
  | cons l ls ih =>
      rw [Machine.each_cons] at hroom
      obtain ⟨more, hstep⟩ := h.step hlegal.1 hroom.1
      obtain ⟨later, hrun⟩ := ih hstep hlegal.2 hroom.2
      refine ⟨more ++ later, ?_⟩
      rw [List.append_assoc, List.append_assoc, List.append_assoc] at hrun
      exact hrun

/-- What a conversation has come to, without what has been accepted. -/
structure Talked (F : Framer UInt8 Unit Bytes) (stream : Bytes) (out : List Bytes)
    (s : Conversation) : Prop where
  consumes : F.Consumes () stream out () s.unread
  sent : sentBytes s.conn.effects <+: out.flatten
  open_ : s.conn.status = .kConnecting →
    sentBytes s.conn.effects ++ s.conn.writeBuffer.unread = out.flatten
  stuck : s.running = false → ∀ n next more, F.verdict () s.unread ≠ .consume n next more
  refused : s.running = false → F.verdict () s.unread = .halt → s.conn.closeRequested = true

theorem Talks.talked (h : Talks F stream out accepted s) : Talked F stream out s where
  consumes := h.consumes
  sent := h.ordered.sent.trans h.front
  open_ hs := by
    rw [← h.all hs]
    exact h.ordered.queue (TcpConnection.ne_disconnected_of_connecting hs)
  stuck := h.stuck
  refused := h.refused

/-- **What has been sent answers what has arrived.** -/
theorem talks_run (F : Framer UInt8 Unit Bytes) (loop : LoopId) (fd : Nat) {size : Nat}
    (hsize : size < 2 ^ 31) (callback added : Bool) (ls : List TalkStep)
    (hlegal : (conversation F).Legal (Conversation.start loop fd size callback added) ls)
    (hroom : (conversation F).Each (fun s l => s.HasRoom F l)
      (Conversation.start loop fd size callback added) ls) :
    ∃ out, Talked F
      ((conversation F).collect Conversation.heard
        (Conversation.start loop fd size callback added) ls)
      out ((conversation F).run (Conversation.start loop fd size callback added) ls) := by
  obtain ⟨out, htalks⟩ := (talks_start F loop fd hsize callback added).run hlegal hroom
  exact ⟨out, htalks.talked⟩

/-! ## Room from what is not sent -/

/-- There is room in the read buffer for the segment. -/
def Conversation.ReadRoom (s : Conversation) : TalkStep → Prop
  | .read segment => s.conn.status = .kConnecting → s.unread.length + segment.length < 2 ^ 31
  | _ => True

variable {k limit : Nat}

/-- **Step lemma.**  At `k` bytes of output for each of input, `limit` bytes more than are sent. -/
theorem Talks.bounded (h : Talks F stream out accepted s) (hyields : F.Yields List.length k)
    (hpos : 0 < k) (hlimit : limit < 2 ^ 31) {l : TalkStep} (hpossible : s.Possible F l)
    (hshort : k * (stream ++ s.heard l).length ≤ limit + (sentBytes s.conn.effects).length) :
    (s.HasRoom F l ∧ s.ReadRoom l) ∧
      (s.step F l).conn.writeBuffer.capacity ≤ max s.conn.writeBuffer.capacity limit := by
  have hread := h.consumes.sum_le hyields
  have haccepted := h.front.length_le
  rw [List.length_flatten] at haccepted
  rw [List.length_append, Nat.mul_add] at hshort
  have hlegal := (conversation_drives F).legal s l hpossible
  have hwriting : accepted.length + (s.said F l).length ≤
        limit + (sentBytes s.conn.effects).length → s.HasRoom F l ∧
      (s.step F l).conn.writeBuffer.capacity ≤ max s.conn.writeBuffer.capacity limit := by
    rw [show (s.step F l).conn = connection.run s.conn (s.labels F l) from
      (conversation_drives F).next s l]
    exact h.ordered.bounded h.sound hlimit hlegal
  have hsilent : s.said F l = [] → s.HasRoom F l ∧
      (s.step F l).conn.writeBuffer.capacity ≤ max s.conn.writeBuffer.capacity limit := by
    intro hnone
    refine hwriting ?_
    rw [hnone, List.length_nil]
    omega
  cases l with
  | read segment =>
      refine ⟨⟨(hsilent rfl).1, ?_⟩, (hsilent rfl).2⟩
      intro hs
      rw [show s.heard (.read segment) = segment from if_neg (not_not.2 hs)] at hshort
      have hone := Nat.le_mul_of_pos_left (s.unread.length + segment.length) hpos
      have hsent := h.ordered.sent.length_le
      rw [Nat.mul_add] at hone
      omega
  | turn r ctl =>
      refine and_right_comm.1 ⟨?_, trivial⟩
      cases hverdict : F.verdict () s.unread with
      | wait =>
          refine hsilent ?_
          show connection.collect _ _ (verdictLabels r ctl _) = []
          rw [hverdict]
          rfl
      | halt =>
          refine hsilent ?_
          show connection.collect _ _ (verdictLabels r ctl _) = []
          rw [hverdict]
          rfl
      | consume n next more =>
          refine hwriting ?_
          have hlen := Nat.mul_le_mul_left k (F.consume_pos hverdict).2
          have hmore := hyields () s.unread n next more hverdict
          have hsaid := (h.sound.collect_writes r ctl more).1.length_le
          rw [List.length_flatten] at hsaid
          rw [show s.said F (.turn r ctl) = connection.collect TcpConnection.accepts s.conn
              (TcpConnection.writeLabels r ctl more) by
            show connection.collect _ _ (verdictLabels r ctl _) = _
            rw [hverdict]
            rfl]
          omega
  | call l =>
      have hnone : s.said F (.call l) = [] := by
        show s.conn.accepts l ++ [] = []
        rw [hpossible.1]
        rfl
      exact and_right_comm.1 ⟨hsilent hnone, trivial⟩
  | other => exact and_right_comm.1 ⟨hsilent rfl, trivial⟩

end Runs

/-! ## Handlers -/

section Window

variable {σ ℓ : Type} {M : Machine σ ℓ} {heard : σ → ℓ → Bytes} {conn : σ → TcpConnection}
  {k limit : Nat} {s : σ}

/-- At every step of a run, what has arrived calls for at most `limit` bytes more than `write(2)`
has taken, at `k` bytes of output for each of input. -/
def Window (M : Machine σ ℓ) (heard : σ → ℓ → Bytes) (conn : σ → TcpConnection) (k limit : Nat)
    (s : σ) (ls : List ℓ) : Prop :=
  ∀ ms l, ms ++ [l] <+: ls → k * (M.collect heard s (ms ++ [l])).length ≤
    limit + (sentBytes (conn (M.run s ms)).effects).length

/-- A run to which little arrives keeps to the window. -/
theorem window_of_short {ls : List ℓ} (hshort : k * (M.collect heard s ls).length ≤ limit) :
    Window M heard conn k limit s ls := by
  rintro ms l ⟨ns, rfl⟩
  rw [M.collect_append, List.length_append, Nat.mul_add] at hshort
  omega

theorem Window.of_append {ls ms : List ℓ} (h : Window M heard conn k limit s (ls ++ ms)) :
    Window M heard conn k limit s ls :=
  fun ns l hfront => h ns l (hfront.trans (List.prefix_append ..))

end Window

/-- A machine whose steps are steps of a conversation, as long as it has room: `heard` are the
bytes that a step reads, and `p` says what the two states have in common. -/
structure Follows {σ ℓ : Type} (M : Machine σ ℓ) (F : Framer UInt8 Unit Bytes) (f : ℓ → TalkStep)
    (heard : σ → ℓ → Bytes) (room : σ → ℓ → Prop) (p : σ → Conversation → Prop) : Prop where
  enabled : ∀ s t l, p s t → M.enabled s l → (conversation F).enabled t (f l)
  room_iff : ∀ s t l, p s t → (room s l ↔ t.HasRoom F (f l) ∧ t.ReadRoom (f l))
  heard_eq : ∀ s t l, p s t → heard s l = t.heard (f l)
  next : ∀ s t l, p s t → M.enabled s l → room s l → p (M.next s l) (t.step F (f l))

namespace Follows

variable {σ ℓ : Type} {M : Machine σ ℓ} {F : Framer UInt8 Unit Bytes} {f : ℓ → TalkStep}
  {heard : σ → ℓ → Bytes} {room : σ → ℓ → Prop} {p : σ → Conversation → Prop} {s : σ}

/-- What a handler has come to is what a conversation has come to. -/
theorem talked (h : Follows M F f heard room p) {loop : LoopId} {fd size : Nat}
    (hsize : size < 2 ^ 31) {callback added : Bool}
    (hstart : p s (Conversation.start loop fd size callback added)) {ls : List ℓ}
    (hlegal : M.Legal s ls) (hroom : M.Each room s ls) :
    ∃ t out, p (M.run s ls) t ∧ Talked F (M.collect heard s ls) out t := by
  have hsteps : ∀ s t l, p s t → M.enabled s l → room s l →
      ((conversation F).enabled t (f l) ∧ t.HasRoom F (f l)) ∧
        p (M.next s l) ((conversation F).next t (f l)) ∧ heard s l = t.heard (f l) := by
    intro s t l hp henabled hr
    exact ⟨⟨h.enabled s t l hp henabled, ((h.room_iff s t l hp).1 hr).1⟩,
      h.next s t l hp henabled hr, h.heard_eq s t l hp⟩
  obtain ⟨⟨htalk, hrooms⟩, hrun, hheard⟩ := M.run_refines f hstart hsteps ls hlegal hroom
  obtain ⟨out, htalked⟩ := talks_run F loop fd hsize callback added (ls.map f) htalk hrooms
  rw [← hheard] at htalked
  exact ⟨_, out, hrun, htalked⟩

/-- **Run lemma.**  What keeps to the window has room, and `limit` bytes of storage are enough for
the write buffer, however much is exchanged in all. -/
theorem bounded (h : Follows M F f heard room p) {conn : σ → TcpConnection}
    (hconn : ∀ s t, p s t → conn s = t.conn) {k limit : Nat} (hyields : F.Yields List.length k)
    (hpos : 0 < k) (hlimit : limit < 2 ^ 31) {loop : LoopId} {fd size : Nat} (hsize : size < 2 ^ 31)
    {callback added : Bool} (hstart : p s (Conversation.start loop fd size callback added))
    (ls : List ℓ) (hlegal : M.Legal s ls) (hwindow : Window M heard conn k limit s ls) :
    M.Each room s ls ∧ (conn (M.run s ls)).writeBuffer.capacity ≤ max size limit := by
  suffices hrun : M.Each room s ls ∧ ∃ t out accepted, p (M.run s ls) t ∧
      Talks F (M.collect heard s ls) out accepted t ∧
      t.conn.writeBuffer.capacity ≤ max size limit by
    obtain ⟨hroom, t, _, _, hp, _, hcapacity⟩ := hrun
    rw [hconn _ t hp]
    exact ⟨hroom, hcapacity⟩
  induction ls using List.reverseRecOn with
  | nil =>
      refine ⟨M.each_nil s, _, [], [], hstart, talks_start F loop fd hsize callback added, ?_⟩
      exact (Buffer.capacity_new size).trans_le (Nat.le_max_left ..)
  | append_singleton ls l ih =>
      obtain ⟨hroom, t, out, accepted, hp, htalks, hcapacity⟩ :=
        ih (Machine.Legal.of_append M hlegal) hwindow.of_append
      have henabled := Machine.Legal.enabled_at M hlegal
      have hpossible := h.enabled _ t l hp henabled
      have hshort := hwindow ls l List.prefix_rfl
      rw [M.collect_concat, hconn _ t hp, h.heard_eq _ t l hp] at hshort
      obtain ⟨hrooms, hgrown⟩ := htalks.bounded hyields hpos hlimit hpossible hshort
      have hr := (h.room_iff _ t l hp).2 hrooms
      obtain ⟨more, hstep⟩ := htalks.step hpossible hrooms.1
      rw [M.each_concat, M.run_concat, M.collect_concat, h.heard_eq _ t l hp]
      exact ⟨⟨hroom, hr⟩, _, _, _, h.next _ t l hp henabled hr, hstep, by omega⟩

end Follows

end Adachi.Network
