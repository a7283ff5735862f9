import Adachi.Network.ConnectionRuns

/-!
# A connection closes exactly once

The whole of a connection: the write side, `Read`, and the dispatch of events by
`Channel::Handle`.  `Handle` runs up to four callbacks in a row, also when one of
them has closed the connection; the callbacks it has still to run are part of the
state, so that calls from the message handler, from the close callback and from
other threads can come between any two of them.

There are three ways into `kDisConnected`: `CloseInThread`, the branch of `WriteFd`
for a drained buffer, and a fatal error in `WriteInThread`.  A step of an open
connection takes at most one of them (`Advances`), and a disconnected connection
does nothing more (`step_disconnected`).

## Main results

* `closes_once`: in every run the status moves forward, the connection is torn down
  once, and nothing happens to it afterwards.
-/

namespace Adachi.Network

open Adachi.Io

/-! ## The order of the states -/

namespace ConnectionState

/-- The position of a state in the life of a connection. -/
def rank : ConnectionState → Nat
  | .kConnecting => 0
  | .kDisConnecting => 1
  | .kDisConnected => 2

instance : LE ConnectionState := ⟨fun s t => s.rank ≤ t.rank⟩

theorem le_refl (s : ConnectionState) : s ≤ s := Nat.le_refl s.rank

theorem le_trans {s t u : ConnectionState} (hst : s ≤ t) (htu : t ≤ u) : s ≤ u :=
  Nat.le_trans hst htu

theorem le_kDisConnected (s : ConnectionState) : s ≤ .kDisConnected := by
  cases s with
  | kConnecting => exact Nat.zero_le 2
  | kDisConnecting => exact Nat.le_succ 1
  | kDisConnected => exact le_refl .kDisConnected

theorem le_kDisConnecting {s : ConnectionState} (hs : s ≠ .kDisConnected) :
    s ≤ .kDisConnecting := by
  cases s with
  | kConnecting => exact Nat.zero_le 1
  | kDisConnecting => exact le_refl .kDisConnecting
  | kDisConnected => exact absurd rfl hs

end ConnectionState

/-! ## What a step of an open connection does -/

/-- A `write(2)` call. -/
def Effect.isWrite : Effect → Bool
  | .sent _ => true
  | .writeFailed _ => true
  | _ => false

/-- What is seen of a disconnection, in the order of `CloseInThread` or in that of
`WriteFd`.  Both remove the channel before they close the descriptor. -/
def teardowns (closeCallback : Bool) : List (List Effect) :=
  let callback := if closeCallback then [Effect.closeCallback] else []
  [[.removed, .closed] ++ callback, callback ++ [.removed, .closed]]

namespace TcpConnection

/-- From `c`, which is open, to `c'`: after some `write(2)` calls the connection is
still open, or it has been torn down once. -/
structure Advances (c c' : TcpConnection) : Prop where
  forward : c.status ≤ c'.status
  effects : ∃ writes last : List Effect, (∀ e ∈ writes, e.isWrite) ∧
    c'.effects = c.effects ++ (writes ++ last) ∧
    (c'.status ≠ .kDisConnected → last = []) ∧
    (c'.status = .kDisConnected → last ∈ teardowns c.closeCallback)

variable {c c' : TcpConnection}

/-- Nothing is seen of the step. -/
theorem Advances.silent (hforward : c.status ≤ c'.status)
    (hopen : c'.status ≠ .kDisConnected) (heffects : c'.effects = c.effects) :
    c.Advances c' where
  forward := hforward
  effects := by
    refine ⟨[], [], List.forall_mem_nil _, ?_, fun _ => rfl, fun hs => absurd hs hopen⟩
    rw [heffects, List.append_nil, List.append_nil]

theorem Advances.refl (hs : c.status ≠ .kDisConnected) : c.Advances c :=
  Advances.silent (ConnectionState.le_refl _) hs rfl

/-- Further parts of the step that change neither the status nor what is seen. -/
theorem Advances.congr {c'' : TcpConnection} (h : c.Advances c')
    (hstatus : c''.status = c'.status) (heffects : c''.effects = c'.effects) :
    c.Advances c'' where
  forward := hstatus ▸ h.forward
  effects := by
    rw [hstatus, heffects]
    exact h.effects

/-- An earlier part of the step has only made calls of `write(2)`. -/
theorem Advances.after {es : List Effect} {c₁ : TcpConnection} (h : c₁.Advances c')
    (hstatus : c₁.status = c.status) (hcallback : c₁.closeCallback = c.closeCallback)
    (heffects : c₁.effects = c.effects ++ es) (hes : ∀ e ∈ es, e.isWrite) :
    c.Advances c' where
  forward := hstatus ▸ h.forward
  effects := by
    rcases h.effects with ⟨writes, last, hwrites, heq, hopen, hdisconnected⟩
    refine ⟨es ++ writes, last, ?_, ?_, hopen, hcallback ▸ hdisconnected⟩
    · intro e he
      rcases List.mem_append.1 he with hmem | hmem
      · exact hes e hmem
      · exact hwrites e hmem
    · rw [heq, heffects, List.append_assoc, List.append_assoc]

theorem advances_of_torn (hs' : c'.status = .kDisConnected) {last : List Effect}
    (hlast : last ∈ teardowns c.closeCallback) (heffects : c'.effects = c.effects ++ last) :
    c.Advances c' where
  forward := hs' ▸ ConnectionState.le_kDisConnected c.status
  effects :=
    ⟨[], last, List.forall_mem_nil _, heffects, fun hopen => absurd hs' hopen, fun _ => hlast⟩

theorem isWrite_single {e : Effect} (he : e.isWrite = true) : ∀ x ∈ [e], x.isWrite := by
  intro x hx
  rw [List.mem_singleton.1 hx, he]

theorem Sound.advances_closeInThread (h : c.Sound) (hs : c.status ≠ .kDisConnected)
    (ctl : EpollCtl) : c.Advances (c.closeInThread ctl) := by
  rcases h.connected hs with ⟨howner, hfd⟩
  by_cases hempty : c.writeBuffer.empty = true
  · exact advances_of_torn (closeInThread_tornDown howner hfd hs hempty ctl).status
      (List.mem_cons_self ..) (closeInThread_effects howner hfd hs hempty ctl)
  · unfold TcpConnection.closeInThread
    rw [if_neg hs, if_neg hempty]
    exact Advances.silent (ConnectionState.le_kDisConnecting hs) ConnectionState.noConfusion rfl

theorem Sound.advances_close (h : c.Sound) (hs : c.status ≠ .kDisConnected)
    (ctl : EpollCtl) : c.Advances (c.close ctl) := by
  unfold TcpConnection.close
  split
  · exact Advances.refl hs
  · dsimp only
    split
    · exact Advances.silent (ConnectionState.le_refl _) hs rfl
    · exact (h.requestClose.advances_closeInThread hs ctl).after rfl rfl
        (List.append_nil _).symm (List.forall_mem_nil _)

theorem advances_activateInThread (hs : c.status ≠ .kDisConnected) (ctl : EpollCtl) :
    c.Advances (c.activateInThread ctl) := by
  unfold TcpConnection.activateInThread
  split
  · exact Advances.refl hs
  · exact Advances.silent (ConnectionState.le_refl _) hs rfl

/-- A call of `write(2)` after which only the buffer changes. -/
theorem advances_write (hs : c.status ≠ .kDisConnected) {e : Effect}
    (he : e.isWrite = true) (hstatus : c'.status = c.status)
    (heffects : c'.effects = c.effects ++ [e]) : c.Advances c' where
  forward := hstatus ▸ ConnectionState.le_refl c.status
  effects := by
    refine ⟨[e], [], isWrite_single he, ?_, fun _ => rfl, ?_⟩
    · rw [heffects, List.append_nil]
    · intro hs'
      exact absurd (hstatus ▸ hs') hs

theorem Sound.advances_putMessage (h : c.Sound) (hs : c.status = .kConnecting)
    (message : Bytes) (r : SysResult Nat) (ctl : EpollCtl) :
    c.Advances (c.putMessage message r ctl) := by
  have hopen := ne_disconnected_of_connecting hs
  unfold TcpConnection.putMessage
  split
  · cases r with
    | ok n =>
        dsimp only
        split
        · exact advances_write hopen rfl rfl rfl
        · exact advances_write hopen rfl rfl rfl
    | error e =>
        have hfailed : (c.emit [.writeFailed e]).Sound := h.emit (by simp)
        dsimp only
        split
        · exact (hfailed.advances_closeInThread hopen ctl).after rfl rfl rfl
            (isWrite_single rfl)
        · exact advances_write hopen rfl rfl rfl
  · exact Advances.silent (ConnectionState.le_refl _) hopen rfl

theorem Sound.advances_writeInThread (h : c.Sound) (hs : c.status ≠ .kDisConnected)
    (message : Bytes) (r : SysResult Nat) (ctl : EpollCtl) :
    c.Advances (c.writeInThread message r ctl) := by
  unfold TcpConnection.writeInThread
  split
  · exact Advances.refl hs
  · rename_i hconnecting
    have hput := h.advances_putMessage (not_not.1 hconnecting) message r ctl
    dsimp only
    split
    · exact hput.congr rfl rfl
    · exact hput

theorem Sound.advances_flush (h : c.Sound) (hs : c.status ≠ .kDisConnected)
    (r : SysResult Nat) (ctl : EpollCtl) : c.Advances (c.flush r ctl) := by
  cases r with
  | ok n => exact advances_write hs rfl rfl rfl
  | error e =>
      have hfailed : (c.emit [.writeFailed e]).Sound := h.emit (by simp)
      rw [TcpConnection.flush_error]
      split
      · exact (hfailed.advances_close hs ctl).after rfl rfl rfl (isWrite_single rfl)
      · exact advances_write hs rfl rfl rfl

theorem Sound.advances_writeFd (h : c.Sound) (hs : c.status ≠ .kDisConnected)
    (r : SysResult Nat) (ctl : EpollCtl) : c.Advances (c.writeFd r ctl) := by
  have hflush := h.advances_flush hs r ctl
  unfold TcpConnection.writeFd
  rw [if_neg hs]
  dsimp only
  split
  · rename_i hempty
    by_cases hclosing : (c.flush r ctl).status = .kDisConnecting
    · cases r with
      | ok n =>
          -- the buffer is drained: the teardown of `WriteFd`
          rcases h.connected hs with ⟨howner, hfd⟩
          have htorn := (flushed_tornDown (c := c.flush (.ok n) ctl) howner hfd hclosing ctl).status
          have heffects := flushed_effects (c := c.flush (.ok n) ctl) howner hfd hclosing ctl
          exact (advances_of_torn htorn (List.mem_cons_of_mem _ (List.mem_cons_self ..))
            heffects).after rfl rfl rfl (isWrite_single rfl)
      | error e => exact absurd hclosing (h.flush_error_status e ctl hempty)
    · rw [flushed_of_ne hclosing]
      exact hflush.congr (unsetWrite_status ..) (unsetWrite_effects ..)
  · exact hflush

/-- **Step lemma.** -/
theorem Sound.advances_step (h : c.Sound) (hs : c.status ≠ .kDisConnected) (l : Label) :
    c.Advances (c.step l) := by
  rcases l with ⟨op, ctl⟩
  cases op with
  | activate =>
      change c.Advances (c.activate ctl)
      rw [h.activate_eq]
      exact advances_activateInThread hs ctl
  | activateInThread => exact advances_activateInThread hs ctl
  | write message r =>
      change c.Advances (c.write message r ctl)
      rw [h.write_eq]
      exact h.advances_writeInThread hs message r ctl
  | writeInThread message r => exact h.advances_writeInThread hs message r ctl
  | writeFd r => exact h.advances_writeFd hs r ctl
  | close => exact h.advances_close hs ctl
  | requestClose => exact Advances.silent (ConnectionState.le_refl _) hs rfl
  | closeInThread => exact h.advances_closeInThread hs ctl

end TcpConnection

/-! ## The whole connection -/

/-- The callbacks of a channel: `Read`, `WriteFd`, and `Close` twice. -/
inductive Callback where
  | read
  | write
  | error
  | close
  deriving DecidableEq, Repr

/-- What `Handle` runs for the active events, in order. -/
def callbacks (active : Events) : List Callback :=
  (if active &&& Channel.kRead ≠ 0 then [.read] else []) ++
    (if active &&& Channel.kWrite ≠ 0 then [.write] else []) ++
    (if active &&& Channel.kError ≠ 0 then [.error] else []) ++
    (if active &&& Channel.kClose ≠ 0 then [.close] else [])

/-- A connection with its read side.  `reads` records what each `readv(2)` call
returned, and `pending` holds the callbacks that `Handle` has still to run. -/
structure Endpoint where
  conn : TcpConnection
  readBuffer : Buffer
  reads : List (SysResult Nat)
  tied : Bool
  pending : List Callback
  deriving DecidableEq, Repr

/-- How the system calls of a callback end: what `readv(2)` stores, what `write(2)`
returns; and `left` is what `onmessage_` leaves in the buffer.  The calls that
`onmessage_` makes on the connection are steps of their own. -/
structure Answer where
  data : SysResult Bytes
  left : Buffer
  written : SysResult Nat
  ctl : EpollCtl
  deriving DecidableEq, Repr

inductive EndpointStep where
  | call (l : Label)
  | setCloseCallback
  | saveLifeMechanism
  | handle (active : Events) (guard : Bool)
  | callback (a : Answer)
  | read (a : Answer)
  deriving DecidableEq, Repr

namespace Endpoint

def new (loop : LoopId) (fd readSize writeSize : Nat) (callback added : Bool) : Endpoint where
  conn := TcpConnection.new loop fd writeSize callback added
  readBuffer := Buffer.new readSize
  reads := []
  tied := false
  pending := []

/-- A function of the connection has run; `RemoveFromLoop` unties the channel. -/
def update (e : Endpoint) (conn : TcpConnection) : Endpoint :=
  { e with
    conn := conn
    tied := e.tied && !(e.conn.channel.owner.isSome && conn.channel.owner.isNone) }

/-- `Read`.  The refresh of the heartbeat is in `Adachi.Io.Timer`. -/
def read (e : Endpoint) (a : Answer) : Endpoint :=
  if e.conn.status ≠ .kConnecting then e
  else
    let (n, readBuffer) := e.readBuffer.readFd a.data
    let e := { e with readBuffer := readBuffer, reads := e.reads ++ [n] }
    match n with
    | .ok 0 => e.update (e.conn.close a.ctl)
    | .ok _ => { e with readBuffer := a.left }
    | .error errno =>
        if errno.retryable then e else e.update (e.conn.close a.ctl)

/-- `Channel::Handle` up to its first callback.  `guard` says whether the object that
the channel is tied to is still there. -/
def handle (e : Endpoint) (active : Events) (guard : Bool) : Endpoint :=
  if e.tied && !guard then e else { e with pending := callbacks active ++ e.pending }

/-- The next callback of `Channel::Handle`. -/
def callback (e : Endpoint) (a : Answer) : Endpoint :=
  match e.pending with
  | [] => e
  | .read :: rest => { e with pending := rest }.read a
  | .write :: rest => { e with pending := rest }.update (e.conn.writeFd a.written a.ctl)
  | .error :: rest => { e with pending := rest }.update (e.conn.close a.ctl)
  | .close :: rest => { e with pending := rest }.update (e.conn.close a.ctl)

section Callback

variable {e : Endpoint} {rest : List Callback}

theorem callback_nil (h : e.pending = []) (a : Answer) : e.callback a = e := by
  rw [callback, h]

theorem callback_read (h : e.pending = .read :: rest) (a : Answer) :
    e.callback a = { e with pending := rest }.read a := by
  rw [callback, h]

theorem callback_write (h : e.pending = .write :: rest) (a : Answer) :
    e.callback a = { e with pending := rest }.update (e.conn.writeFd a.written a.ctl) := by
  rw [callback, h]

theorem callback_close (h : e.pending = .close :: rest) (a : Answer) :
    e.callback a = { e with pending := rest }.update (e.conn.close a.ctl) := by
  rw [callback, h]

end Callback

def next (e : Endpoint) : EndpointStep → Endpoint
  | .call l => e.update (e.conn.step l)
  | .setCloseCallback => { e with conn := { e.conn with closeCallback := true } }
  | .saveLifeMechanism => { e with tied := true }
  | .handle active guard => e.handle active guard
  | .callback a => e.callback a
  | .read a => e.read a

/-- `SaveLifeMechanism` reads the timer of the owner, which must not be null. -/
def Possible (e : Endpoint) : EndpointStep → Prop
  | .saveLifeMechanism => e.conn.channel.owner.isSome
  | _ => True

end Endpoint

def endpoint : Machine Endpoint EndpointStep where
  next := Endpoint.next
  enabled := Endpoint.Possible

namespace Endpoint

/-- The messages a step accepts for sending. -/
def accepted (e : Endpoint) : EndpointStep → List Bytes
  | .call ⟨.write message _, _⟩ =>
      if e.conn.channel.owner ≠ none ∧ e.conn.status = .kConnecting then [message] else []
  | .call ⟨.writeInThread message _, _⟩ =>
      if e.conn.status = .kConnecting then [message] else []
  | _ => []

/-! ## What a step does to the connection -/

/-- The connection takes a step of its own, or a close callback is set. -/
inductive Moves (c : TcpConnection) : TcpConnection → Prop where
  | stays : Moves c c
  | calls (l : Label) : Moves c (c.step l)
  | setsCallback : Moves c { c with closeCallback := true }

theorem moves_read (e : Endpoint) (a : Answer) : Moves e.conn (e.read a).conn := by
  unfold read
  split
  · exact .stays
  · dsimp only
    split
    · exact .calls ⟨.close, a.ctl⟩
    · exact .stays
    · split
      · exact .stays
      · exact .calls ⟨.close, a.ctl⟩

/-- **Step lemma.** -/
theorem moves_next (e : Endpoint) (s : EndpointStep) : Moves e.conn (e.next s).conn := by
  cases s with
  | call l => exact .calls l
  | setCloseCallback => exact .setsCallback
  | saveLifeMechanism => exact .stays
  | handle active guard =>
      change Moves e.conn (e.handle active guard).conn
      unfold handle
      split
      · exact .stays
      · exact .stays
  | callback a =>
      change Moves e.conn (e.callback a).conn
      unfold callback
      cases e.pending with
      | nil => exact .stays
      | cons first rest =>
          cases first with
          | read => exact moves_read { e with pending := rest } a
          | write => exact .calls ⟨.writeFd a.written, a.ctl⟩
          | error => exact .calls ⟨.close, a.ctl⟩
          | close => exact .calls ⟨.close, a.ctl⟩
  | read a => exact moves_read e a

/-! ## While the connection is open -/

/-- Until it is disconnected, only calls of `write(2)` are seen of the connection. -/
structure Open (c : TcpConnection) : Prop where
  sound : c.Sound
  writes : ∀ x ∈ c.effects, x.isWrite

theorem open_new (loop : LoopId) (fd size : Nat) (callback added : Bool) :
    Open (TcpConnection.new loop fd size callback added) where
  sound := TcpConnection.sound_new loop fd size callback added
  writes := List.forall_mem_nil _

theorem Open.setCloseCallback {c : TcpConnection} (h : Open c)
    (hs : c.status ≠ .kDisConnected) : Open { c with closeCallback := true } where
  sound :=
    ⟨h.sound.connected, h.sound.unclosed, h.sound.disconnecting, fun hs' => absurd hs' hs⟩
  writes := h.writes

/-- **Step lemma** for an open connection: the status moves forward, and either the
connection is still open or everything has been torn down once. -/
theorem Open.moves {c c' : TcpConnection} (h : Open c) (hs : c.status ≠ .kDisConnected)
    (hmoves : Moves c c') :
    c.status ≤ c'.status ∧
      (c'.status ≠ .kDisConnected → Open c') ∧
      (c'.status = .kDisConnected →
        c'.channel.owner = none ∧ c'.socket.fd = -1 ∧
          ∃ writes last : List Effect, (∀ x ∈ writes, x.isWrite) ∧
            last ∈ teardowns c.closeCallback ∧ c'.effects = writes ++ last) := by
  cases hmoves with
  | stays => exact ⟨ConnectionState.le_refl _, fun _ => h, fun hs' => absurd hs' hs⟩
  | setsCallback =>
      exact ⟨ConnectionState.le_refl _, fun _ => h.setCloseCallback hs,
        fun hs' => absurd hs' hs⟩
  | calls l =>
      have hadvances := h.sound.advances_step hs l
      have hsound := h.sound.step l
      rcases hadvances.effects with ⟨writes, last, hwrites, heffects, hopen, htorn⟩
      have hall : ∀ x ∈ c.effects ++ writes, x.isWrite := by
        intro x hx
        rcases List.mem_append.1 hx with hmem | hmem
        · exact h.writes x hmem
        · exact hwrites x hmem
      rw [← List.append_assoc] at heffects
      refine ⟨hadvances.forward, ?_, ?_⟩
      · intro hs'
        rw [hopen hs', List.append_nil] at heffects
        exact ⟨hsound, heffects ▸ hall⟩
      · intro hs'
        have hdown := hsound.disconnected hs'
        exact ⟨hdown.owner, hdown.fd, c.effects ++ writes, last, hall, htorn hs', heffects⟩

/-! ## Once the connection is disconnected -/

/-- Nothing has been read, written, registered or closed between the two states. -/
structure Still (e e' : Endpoint) : Prop where
  status : e'.conn.status = e.conn.status
  reads : e'.reads = e.reads
  effects : e'.conn.effects = e.conn.effects
  channel : e'.conn.channel = e.conn.channel
  writeBuffer : e'.conn.writeBuffer = e.conn.writeBuffer

theorem Still.refl (e : Endpoint) : Still e e := ⟨rfl, rfl, rfl, rfl, rfl⟩

theorem Still.trans {e e' e'' : Endpoint} (h : Still e e') (h' : Still e' e'') :
    Still e e'' where
  status := h'.status.trans h.status
  reads := h'.reads.trans h.reads
  effects := h'.effects.trans h.effects
  channel := h'.channel.trans h.channel
  writeBuffer := h'.writeBuffer.trans h.writeBuffer

theorem moves_disconnected {c c' : TcpConnection} (hs : c.status = .kDisConnected)
    (hmoves : Moves c c') : ∃ closeRequested closeCallback : Bool,
      c' = { c with closeRequested := closeRequested, closeCallback := closeCallback } := by
  cases hmoves with
  | stays => exact ⟨c.closeRequested, c.closeCallback, rfl⟩
  | setsCallback => exact ⟨c.closeRequested, true, rfl⟩
  | calls l =>
      rcases TcpConnection.step_disconnected hs l with ⟨closeRequested, heq⟩
      exact ⟨closeRequested, c.closeCallback, heq⟩

variable {e : Endpoint}

theorem read_reads (hs : e.conn.status = .kDisConnected) (a : Answer) : e.read a = e := by
  unfold read
  rw [hs, if_pos (by decide)]

theorem next_reads (hs : e.conn.status = .kDisConnected) (s : EndpointStep) :
    (e.next s).reads = e.reads := by
  cases s with
  | call l => rfl
  | setCloseCallback => rfl
  | saveLifeMechanism => rfl
  | handle active guard =>
      change (e.handle active guard).reads = e.reads
      unfold handle
      split
      · rfl
      · rfl
  | callback a =>
      change (e.callback a).reads = e.reads
      unfold callback
      cases e.pending with
      | nil => rfl
      | cons first rest =>
          cases first with
          | read =>
              dsimp only
              rw [read_reads (e := { e with pending := rest }) hs a]
          | write => rfl
          | error => rfl
          | close => rfl
  | read a => exact congrArg Endpoint.reads (read_reads hs a)

/-- **Step lemma** for a disconnected connection. -/
theorem still_next (hs : e.conn.status = .kDisConnected) (s : EndpointStep) :
    Still e (e.next s) := by
  rcases moves_disconnected hs (moves_next e s) with ⟨closeRequested, closeCallback, heq⟩
  constructor
  · rw [heq]
  · exact next_reads hs s
  · rw [heq]
  · rw [heq]
  · rw [heq]

theorem accepted_disconnected (hs : e.conn.status = .kDisConnected) (s : EndpointStep) :
    e.accepted s = [] := by
  have hclosed : e.conn.status ≠ .kConnecting := by
    rw [hs]
    decide
  unfold accepted
  split
  · exact if_neg fun h => hclosed h.2
  · exact if_neg hclosed
  · rfl

/-- **Run lemma** for a disconnected connection. -/
theorem still_run (hs : e.conn.status = .kDisConnected) (ss : List EndpointStep) :
    Still e (endpoint.run e ss) ∧ endpoint.collect accepted e ss = [] := by
  induction ss generalizing e with
  | nil => exact ⟨Still.refl e, rfl⟩
  | cons s ss ih =>
      have hstep := still_next hs s
      rcases ih (hstep.status.trans hs) with ⟨hrest, haccepted⟩
      constructor
      · exact hstep.trans hrest
      · change e.accepted s ++ endpoint.collect accepted (e.next s) ss = []
        rw [accepted_disconnected hs s, List.nil_append]
        exact haccepted

/-! ## Runs -/

theorem status_le_next (hopen : e.conn.status ≠ .kDisConnected → Open e.conn)
    (s : EndpointStep) : e.conn.status ≤ (e.next s).conn.status := by
  by_cases hs : e.conn.status = .kDisConnected
  · rw [(still_next hs s).status]
    exact ConnectionState.le_refl _
  · exact ((hopen hs).moves hs (moves_next e s)).1

theorem open_next (hopen : e.conn.status ≠ .kDisConnected → Open e.conn) (s : EndpointStep)
    (hs' : (e.next s).conn.status ≠ .kDisConnected) : Open (e.next s).conn := by
  by_cases hs : e.conn.status = .kDisConnected
  · exact absurd ((still_next hs s).status.trans hs) hs'
  · exact ((hopen hs).moves hs (moves_next e s)).2.1 hs'

/-- **Run lemma**: a connection that is not disconnected is open, and its status only
moves forward. -/
theorem open_run (hopen : e.conn.status ≠ .kDisConnected → Open e.conn)
    (ss : List EndpointStep) :
    ((endpoint.run e ss).conn.status ≠ .kDisConnected → Open (endpoint.run e ss).conn) ∧
      e.conn.status ≤ (endpoint.run e ss).conn.status := by
  induction ss generalizing e with
  | nil => exact ⟨hopen, ConnectionState.le_refl _⟩
  | cons s ss ih =>
      rcases ih (open_next hopen s) with ⟨hrest, hle⟩
      exact ⟨hrest, ConnectionState.le_trans (status_le_next hopen s) hle⟩

/-- **A connection closes exactly once.**  In every run `before`, `s`, `after` of a new
connection the status only moves forward.  Before the connection is disconnected
only calls of `write(2)` are seen of it.  The step `s` that disconnects it removes
the channel from its loop, then closes the descriptor, and runs the close callback if
one is set, each once in the whole run.  Afterwards nothing is read, written,
registered or accepted. -/
theorem closes_once (loop : LoopId) (fd readSize writeSize : Nat) (callback added : Bool)
    (before : List EndpointStep) (s : EndpointStep) (after : List EndpointStep) :
    let e := endpoint.run (Endpoint.new loop fd readSize writeSize callback added) before
    let e' := endpoint.next e s
    let e'' := endpoint.run e' after
    e.conn.status ≤ e'.conn.status ∧ e'.conn.status ≤ e''.conn.status ∧
    (e.conn.status ≠ .kDisConnected → ∀ x ∈ e.conn.effects, x.isWrite) ∧
    (e.conn.status ≠ .kDisConnected → e'.conn.status = .kDisConnected →
      e''.conn.channel.owner = none ∧ e'.conn.socket.fd = -1 ∧
        ∃ writes last : List Effect, (∀ x ∈ writes, x.isWrite) ∧
          last ∈ teardowns e.conn.closeCallback ∧ e''.conn.effects = writes ++ last) ∧
    (e'.conn.status = .kDisConnected →
      Still e' e'' ∧ endpoint.collect accepted e' after = []) := by
  intro e e' e''
  have hstart : Open (Endpoint.new loop fd readSize writeSize callback added).conn :=
    open_new loop fd writeSize callback added
  have hopen := (open_run (fun _ => hstart) before).1
  refine ⟨status_le_next hopen s, (open_run (open_next hopen s) after).2, ?_, ?_, ?_⟩
  · exact fun hs => (hopen hs).writes
  · intro hs hs'
    have hstill := (still_run hs' after).1
    rw [hstill.channel, hstill.effects]
    exact ((hopen hs).moves hs (moves_next e s)).2.2 hs'
  · exact fun hs' => still_run hs' after

end Endpoint

end Adachi.Network
