import Adachi.Network.Conversation

/-!
# What a peer sends before it closes its side

A peer that has sent its `FIN` may still have bytes in the receive queue of the socket.
Epoll then reports `EPOLLIN` together with `EPOLLRDHUP`, and `Channel::Handle`
(`src/channel.cpp`) runs `Read` once and the close callback after it.  One `Read` stores at
most what fits behind the write cursor of the read buffer and in the side array of
`ReadFd`.  The branch of `Read` for the end of file, which closes only when the queue has
been emptied, is not reached.

## Main results

* `half_close_keeps_iff`: when the connection has left `kConnecting`, all bytes have been
  passed on exactly if no dispatch that ends with the close callback has found more than this
  in the queue.
-/

namespace Adachi.Network

open Adachi.Io

/-! ## The receive queue -/

/-- A connection with the receive queue of its socket.  `sent` is everything that has
arrived, `passed` what `ReadFd` has stored in the read buffer for `onmessage_`. -/
structure Reception where
  endpoint : Endpoint
  queue : Bytes
  fin : Bool
  sent : Bytes
  passed : Bytes

/-- Bytes or the `FIN` of the peer arrive, or the connection takes a step. -/
inductive ReceptionStep where
  | arrive (bytes : Bytes)
  | finish
  | step (s : EndpointStep)

/-- The most that `ReadFd` can store at once: the lengths of its two `iovec`s. -/
def readRoom (b : Buffer) : Nat :=
  (b.buffer.length + (2 ^ 64 - toSize b.writeptr)) % 2 ^ 64 + 65536

/-- `readv` on a socket that does not block -/
def readv (room : Nat) (queue : Bytes) (fin : Bool) : SysResult Bytes :=
  if queue = [] then if fin then .ok [] else .error .eagain
  else .ok (queue.take room)

/-- The next callback is a `Read` that does not return at once. -/
def Endpoint.Reads (e : Endpoint) : Prop :=
  e.pending.head? = some .read ∧ e.conn.status = .kConnecting

instance (e : Endpoint) : Decidable e.Reads := inferInstanceAs (Decidable (_ ∧ _))

namespace Reception

def new (loop : LoopId) (fd readSize writeSize : Nat) (callback added : Bool) : Reception where
  endpoint := Endpoint.new loop fd readSize writeSize callback added
  queue := []
  fin := false
  sent := []
  passed := []

/-- What a step takes out of the queue -/
def taken (r : Reception) : EndpointStep → Bytes
  | .callback a =>
      if r.endpoint.Reads then
        match a.data with
        | .ok data => data
        | .error _ => []
      else []
  | _ => []

def next (r : Reception) : ReceptionStep → Reception
  | .arrive bytes => { r with queue := r.queue ++ bytes, sent := r.sent ++ bytes }
  | .finish => { r with fin := true }
  | .step s =>
      { r with
        endpoint := r.endpoint.next s
        queue := r.queue.drop (r.taken s).length
        passed := r.passed ++ r.taken s }

/-- `write(2)` succeeds or may be tried again. -/
def NotFatal : SysResult Nat → Prop
  | .ok _ => True
  | .error e => e.retryable = true

instance : (r : SysResult Nat) → Decidable (NotFatal r)
  | .ok _ => inferInstanceAs (Decidable True)
  | .error e => inferInstanceAs (Decidable (e.retryable = true))

/-- A call that does not ask for the connection to be closed, with no fatal error. -/
def Keeps : Op → Prop
  | .activate | .activateInThread => True
  | .write _ r | .writeInThread _ r | .writeFd r => NotFatal r
  | .close | .requestClose | .closeInThread => False

instance : (op : Op) → Decidable (Keeps op)
  | .activate | .activateInThread => inferInstanceAs (Decidable True)
  | .write _ r | .writeInThread _ r | .writeFd r => inferInstanceAs (Decidable (NotFatal r))
  | .close | .requestClose | .closeInThread => inferInstanceAs (Decidable False)

/-- What the kernel reports: `EPOLLRDHUP` and `EPOLLHUP` only after the `FIN` and together
with `EPOLLIN`, and no error. -/
def Reported (r : Reception) (active : Events) : Prop :=
  active &&& Channel.kError = 0 ∧
    (active &&& Channel.kClose ≠ 0 → r.fin = true ∧ active &&& Channel.kRead ≠ 0)

instance (r : Reception) (active : Events) : Decidable (r.Reported active) :=
  inferInstanceAs (Decidable (_ ∧ (_ → _ ∧ _)))

/-- How the system calls of the next callback end -/
def Answered (r : Reception) (a : Answer) : Prop :=
  (r.endpoint.Reads → a.data = readv (readRoom r.endpoint.readBuffer) r.queue r.fin) ∧
    NotFatal a.written

instance (r : Reception) (a : Answer) : Decidable (r.Answered a) :=
  inferInstanceAs (Decidable ((_ → _ = _) ∧ _))

/-- Nothing arrives after the `FIN`; `Read` is called by `Handle` alone, and the loop calls
`Handle` again only when the last call has returned. -/
def Possible (r : Reception) : ReceptionStep → Prop
  | .arrive _ | .finish => r.fin = false
  | .step (.call l) => Keeps l.op
  | .step .setCloseCallback => True
  | .step .saveLifeMechanism => r.endpoint.Possible .saveLifeMechanism
  | .step (.handle active _) => r.endpoint.pending = [] ∧ r.Reported active
  | .step (.callback a) => r.Answered a
  | .step (.read _) => False

instance (r : Reception) : (l : ReceptionStep) → Decidable (r.Possible l)
  | .arrive _ | .finish => inferInstanceAs (Decidable (r.fin = false))
  | .step (.call l) => inferInstanceAs (Decidable (Keeps l.op))
  | .step .setCloseCallback => inferInstanceAs (Decidable True)
  | .step .saveLifeMechanism =>
      inferInstanceAs (Decidable (r.endpoint.conn.channel.owner.isSome = true))
  | .step (.handle active _) =>
      inferInstanceAs (Decidable (r.endpoint.pending = [] ∧ r.Reported active))
  | .step (.callback a) => inferInstanceAs (Decidable (r.Answered a))
  | .step (.read _) => inferInstanceAs (Decidable False)

/-- When the close callback is still to come in this dispatch, `Read` finds no more than it
can store. -/
def Drains (r : Reception) : ReceptionStep → Prop
  | .step (.callback _) =>
      r.endpoint.Reads → .close ∈ r.endpoint.pending →
        r.queue.length ≤ readRoom r.endpoint.readBuffer
  | _ => True

instance (r : Reception) : (l : ReceptionStep) → Decidable (r.Drains l)
  | .step (.callback _) => inferInstanceAs (Decidable
      (r.endpoint.Reads → .close ∈ r.endpoint.pending →
        r.queue.length ≤ readRoom r.endpoint.readBuffer))
  | .arrive _ | .finish | .step (.call _) | .step .setCloseCallback
  | .step .saveLifeMechanism | .step (.handle ..) | .step (.read _) =>
      inferInstanceAs (Decidable True)

end Reception

def reception : Machine Reception ReceptionStep where
  next := Reception.next
  enabled := Reception.Possible

instance (r : Reception) (l : ReceptionStep) : Decidable (reception.enabled r l) :=
  inferInstanceAs (Decidable (r.Possible l))

/-! ## Calls that keep the connection open -/

namespace TcpConnection

variable {c : TcpConnection}

theorem putMessage_status {r : SysResult Nat} (hr : Reception.NotFatal r) (message : Bytes)
    (ctl : EpollCtl) : (c.putMessage message r ctl).status = c.status := by
  unfold TcpConnection.putMessage
  split
  · cases r with
    | ok n =>
        dsimp only
        split
        · rfl
        · rfl
    | error e =>
        have he : e.retryable = true := hr
        dsimp only
        rw [he]
        rfl
  · rfl

theorem writeInThread_status {r : SysResult Nat} (hr : Reception.NotFatal r) (message : Bytes)
    (ctl : EpollCtl) : (c.writeInThread message r ctl).status = c.status := by
  unfold TcpConnection.writeInThread
  split
  · rfl
  · dsimp only
    split
    · exact putMessage_status hr message ctl
    · exact putMessage_status hr message ctl

theorem flush_status {r : SysResult Nat} (hr : Reception.NotFatal r) (ctl : EpollCtl) :
    (c.flush r ctl).status = c.status := by
  cases r with
  | ok n => rfl
  | error e =>
      have he : e.retryable = true := hr
      rw [flush_error, he]
      rfl

theorem writeFd_status (hs : c.status = .kConnecting) {r : SysResult Nat}
    (hr : Reception.NotFatal r) (ctl : EpollCtl) : (c.writeFd r ctl).status = .kConnecting := by
  have hflush : (c.flush r ctl).status = .kConnecting := (flush_status hr ctl).trans hs
  unfold TcpConnection.writeFd
  rw [if_neg (ne_disconnected_of_connecting hs)]
  dsimp only
  split
  · unfold TcpConnection.flushed
    dsimp only
    rw [unsetWrite_status, hflush, if_neg (by decide), unsetWrite_status]
    exact hflush
  · exact hflush

theorem step_status (hs : c.status = .kConnecting) {l : Label} (hl : Reception.Keeps l.op) :
    (c.step l).status = .kConnecting := by
  rcases l with ⟨op, ctl⟩
  have hactivate : (c.activateInThread ctl).status = .kConnecting := by
    unfold TcpConnection.activateInThread
    split
    · exact hs
    · exact hs
  cases op with
  | activate =>
      show (c.activate ctl).status = .kConnecting
      unfold TcpConnection.activate
      split
      · exact hs
      · exact hactivate
  | activateInThread => exact hactivate
  | write message r =>
      show (c.write message r ctl).status = .kConnecting
      unfold TcpConnection.write
      split
      · exact hs
      · exact (writeInThread_status hl message ctl).trans hs
  | writeInThread message r => exact (writeInThread_status hl message ctl).trans hs
  | writeFd r => exact writeFd_status hs hl ctl
  | close | requestClose | closeInThread => exact hl.elim

end TcpConnection

namespace Reception

variable {r : Reception}

/-! ## What `Read` does with the queue -/

theorem readFd_ok (b : Buffer) {data : Bytes} (h : data ≠ []) :
    (b.readFd (.ok data)).1 = .ok data.length := by
  cases data with
  | nil => exact absurd rfl h
  | cons ch data =>
      unfold Buffer.readFd
      dsimp only
      split
      · rfl
      · rfl

/-- With bytes in the queue, `Read` leaves the connection as it is. -/
theorem read_conn {e : Endpoint} {a : Answer} {data : Bytes} (ha : a.data = .ok data)
    (h : data ≠ []) : (e.read a).conn = e.conn := by
  have hread := readFd_ok e.readBuffer h
  have hlength : data.length ≠ 0 := fun hzero => h (List.length_eq_zero_iff.1 hzero)
  unfold Endpoint.read
  split
  · rfl
  · dsimp only
    rw [ha, hread]
    split
    · rename_i hzero
      exact absurd (Except.ok.inj hzero) hlength
    · rfl
    · rename_i herror
      cases herror

theorem read_pending (e : Endpoint) (a : Answer) : (e.read a).pending = e.pending := by
  unfold Endpoint.read
  split
  · rfl
  · dsimp only
    split
    · rfl
    · rfl
    · split
      · rfl
      · rfl

theorem next_of_taken_nil {s : EndpointStep} (h : r.taken s = []) :
    r.next (.step s) = { r with endpoint := r.endpoint.next s } := by
  show ({ r with
    endpoint := r.endpoint.next s
    queue := r.queue.drop (r.taken s).length
    passed := r.passed ++ r.taken s } : Reception) = _
  rw [h, List.length_nil, List.drop_zero, List.append_nil]

theorem taken_callback_nil (h : r.endpoint.pending.head? ≠ some .read) (a : Answer) :
    r.taken (.callback a) = [] := if_neg fun hreads => h hreads.1

theorem drop_length_take (xs : Bytes) (n : Nat) : xs.drop (xs.take n).length = xs.drop n := by
  rw [List.length_take]
  rcases Nat.le_total n xs.length with hle | hle
  · rw [Nat.min_eq_left hle]
  · rw [Nat.min_eq_right hle, List.drop_length, List.drop_of_length_le hle]

theorem readRoom_pos (b : Buffer) : 0 < readRoom b := by
  unfold readRoom
  omega

/-- `Read` in an open connection, with the bytes that it finds -/
theorem next_read (hreads : r.endpoint.Reads) {rest : List Callback}
    (hpending : r.endpoint.pending = .read :: rest) {a : Answer} (ha : r.Answered a)
    (hqueue : r.queue ≠ []) :
    let r' := r.next (.step (.callback a))
    r'.endpoint.pending = rest ∧ r'.endpoint.conn = r.endpoint.conn ∧
      r'.queue = r.queue.drop (readRoom r.endpoint.readBuffer) ∧
      r'.passed = r.passed ++ r.queue.take (readRoom r.endpoint.readBuffer) ∧
      r'.sent = r.sent ∧ r'.fin = r.fin := by
  intro r'
  have hdata : a.data = .ok (r.queue.take (readRoom r.endpoint.readBuffer)) := by
    rw [ha.1 hreads]
    exact if_neg hqueue
  have hne : r.queue.take (readRoom r.endpoint.readBuffer) ≠ [] := by
    have hroom := readRoom_pos r.endpoint.readBuffer
    rw [Ne, List.take_eq_nil_iff]
    exact not_or.2 ⟨by omega, hqueue⟩
  have htaken : r.taken (.callback a) = r.queue.take (readRoom r.endpoint.readBuffer) := by
    unfold taken
    dsimp only
    rw [if_pos hreads, hdata]
  have hcallback := Endpoint.callback_read hpending a
  refine ⟨?_, ?_, ?_, ?_, rfl, rfl⟩
  · show (r.endpoint.callback a).pending = rest
    rw [hcallback]
    exact read_pending _ a
  · show (r.endpoint.callback a).conn = r.endpoint.conn
    rw [hcallback]
    exact read_conn hdata hne
  · show r.queue.drop (r.taken (.callback a)).length = _
    rw [htaken, drop_length_take]
  · show r.passed ++ r.taken (.callback a) = _
    rw [htaken]

/-- A `Read` empties the queue exactly when it finds no more than it can store. -/
theorem drained_iff (hreads : r.endpoint.Reads) {rest : List Callback}
    (hpending : r.endpoint.pending = .read :: rest) {a : Answer} (ha : r.Answered a)
    (hqueue : r.queue ≠ []) :
    (r.next (.step (.callback a))).queue = [] ↔
      r.queue.length ≤ readRoom r.endpoint.readBuffer := by
  rw [(next_read hreads hpending ha hqueue).2.2.1, List.drop_eq_nil_iff]

/-! ## What a step can do -/

/-- Nothing has arrived and nothing has been read. -/
structure Same (r r' : Reception) : Prop where
  queue : r'.queue = r.queue
  fin : r'.fin = r.fin
  sent : r'.sent = r.sent
  passed : r'.passed = r.passed

/-- Between two states the connection has not left `kConnecting`. -/
def Keeping (r r' : Reception) : Prop :=
  r.endpoint.conn.status = .kConnecting → r'.endpoint.conn.status = .kConnecting

/-- What a step can do, as far as the queue is concerned. -/
inductive Change (r : Reception) (l : ReceptionStep) (r' : Reception) : Prop where
  /-- Bytes or the `FIN` of the peer -/
  | arrives (hopen : r.fin = false) (hendpoint : r'.endpoint = r.endpoint)
      (hsplit : r.passed ++ r.queue = r.sent → r'.passed ++ r'.queue = r'.sent)
  /-- A call from outside the dispatch -/
  | calls (hsame : r.Same r') (hpending : r'.endpoint.pending = r.endpoint.pending)
      (hkeeps : r.Keeping r')
  /-- `Handle` -/
  | handles (hsame : r.Same r') (active : Events) (hactive : r.Reported active)
      (hidle : r.endpoint.pending = []) (hpending : r'.endpoint.pending = callbacks active)
      (hkeeps : r.Keeping r')
  /-- `WriteFd` -/
  | writes (hsame : r.Same r') {rest : List Callback}
      (hpending : r.endpoint.pending = .write :: rest) (hrest : r'.endpoint.pending = rest)
      (hkeeps : r.Keeping r')
  /-- A `Read` of a connection that is closed, or has nothing to read -/
  | finds (hsame : r.Same r') {rest : List Callback}
      (hpending : r.endpoint.pending = .read :: rest) (hrest : r'.endpoint.pending = rest)
      (hempty : r.endpoint.conn.status = .kConnecting → r.queue = [])
      (hkeeps : r.fin = false → r.Keeping r')
  /-- A `Read` that finds bytes -/
  | reads (a : Answer) (hl : l = .step (.callback a)) (hr' : r' = r.next l) (ha : r.Answered a)
      (hreads : r.endpoint.Reads) {rest : List Callback}
      (hpending : r.endpoint.pending = .read :: rest) (hqueue : r.queue ≠ [])
  /-- The close callback -/
  | closes (hsame : r.Same r') {rest : List Callback}
      (hpending : r.endpoint.pending = .close :: rest) (hrest : r'.endpoint.pending = rest)
      (hleft : r'.endpoint.conn.status ≠ .kConnecting)
  /-- The error callback -/
  | fails (herror : .error ∈ r.endpoint.pending)

/-- A connection that is not disconnected is in order, and has been closed if it has been
asked to. -/
structure Alive (c : TcpConnection) : Prop where
  opened : c.status ≠ .kDisConnected → Endpoint.Open c
  asked : c.Asked

theorem alive_new (loop : LoopId) (fd size : Nat) (callback added : Bool) :
    Alive (TcpConnection.new loop fd size callback added) where
  opened _ := Endpoint.open_new loop fd size callback added
  asked := nofun

theorem Alive.close {c : TcpConnection} (h : Alive c) (ctl : EpollCtl) :
    (c.close ctl).status ≠ .kConnecting := by
  by_cases hs : c.status = .kDisConnected
  · obtain ⟨closeRequested, heq⟩ := TcpConnection.step_disconnected hs ⟨.close, ctl⟩
    have hclose : c.close ctl = _ := heq
    rw [hclose]
    exact fun hs' => nomatch hs.symm.trans hs'
  · exact (h.opened hs).sound.close_asked h.asked ctl

theorem same_of_taken_nil {s : EndpointStep} (h : r.taken s = []) : r.Same (r.next (.step s)) := by
  rw [next_of_taken_nil h]
  exact ⟨rfl, rfl, rfl, rfl⟩

/-- A `Read` of an open connection that finds nothing closes it only after the `FIN`. -/
theorem change_read_empty (hreads : r.endpoint.Reads) {a : Answer} (ha : r.Answered a)
    {rest : List Callback} (hpending : r.endpoint.pending = .read :: rest) (hqueue : r.queue = []) :
    r.Change (.step (.callback a)) (r.next (.step (.callback a))) := by
  have hcallback := Endpoint.callback_read hpending a
  have hdata := ha.1 hreads
  rw [readv, if_pos hqueue] at hdata
  have htaken : r.taken (.callback a) = [] := by
    unfold taken
    dsimp only
    rw [if_pos hreads, hdata]
    cases r.fin with
    | true => rfl
    | false => rfl
  refine .finds (same_of_taken_nil htaken) hpending ?_ (fun _ => hqueue) ?_
  · show (r.endpoint.callback a).pending = rest
    rw [hcallback]
    exact read_pending _ a
  · intro hfin _
    show (r.endpoint.callback a).conn.status = .kConnecting
    rw [hfin] at hdata
    rw [hcallback]
    unfold Endpoint.read
    rw [if_neg (not_not.2 hreads.2), hdata]
    exact hreads.2

theorem change_read {a : Answer} (ha : r.Answered a) {rest : List Callback}
    (hpending : r.endpoint.pending = .read :: rest) :
    r.Change (.step (.callback a)) (r.next (.step (.callback a))) := by
  by_cases hs : r.endpoint.conn.status = .kConnecting
  · have hreads : r.endpoint.Reads := ⟨by rw [hpending]; rfl, hs⟩
    by_cases hqueue : r.queue = []
    · exact change_read_empty hreads ha hpending hqueue
    · exact .reads a rfl rfl ha hreads hpending hqueue
  · have htaken : r.taken (.callback a) = [] := if_neg fun hreads => hs hreads.2
    refine .finds (same_of_taken_nil htaken) hpending ?_ (fun hs' => absurd hs' hs)
      fun _ hs' => absurd hs' hs
    show (r.endpoint.callback a).pending = rest
    rw [Endpoint.callback_read hpending a]
    exact read_pending _ a

theorem change_callback (h : Alive r.endpoint.conn) {a : Answer} (ha : r.Answered a)
    {first : Callback} {rest : List Callback} (hpending : r.endpoint.pending = first :: rest) :
    r.Change (.step (.callback a)) (r.next (.step (.callback a))) := by
  have hother (hne : first ≠ .read) : r.Same (r.next (.step (.callback a))) := by
    refine same_of_taken_nil (taken_callback_nil ?_ a)
    rw [hpending]
    exact fun hhead => hne (Option.some.inj hhead)
  cases first with
  | read => exact change_read ha hpending
  | write =>
      have hcallback : r.endpoint.next (.callback a) = _ :=
        Endpoint.callback_write hpending a
      refine .writes (hother (by decide)) hpending (congrArg Endpoint.pending hcallback) ?_
      intro hs
      show (r.endpoint.next (.callback a)).conn.status = .kConnecting
      rw [hcallback]
      exact TcpConnection.writeFd_status hs ha.2 a.ctl
  | error => exact .fails (hpending ▸ List.mem_cons_self)
  | close =>
      have hcallback : r.endpoint.next (.callback a) = _ :=
        Endpoint.callback_close hpending a
      refine .closes (hother (by decide)) hpending (congrArg Endpoint.pending hcallback) ?_
      show (r.endpoint.next (.callback a)).conn.status ≠ .kConnecting
      rw [hcallback]
      exact h.close a.ctl

/-- **Inversion lemma.** -/
theorem change_of_possible (h : Alive r.endpoint.conn) {l : ReceptionStep} (hl : r.Possible l) :
    r.Change l (r.next l) := by
  cases l with
  | arrive bytes =>
      refine .arrives hl rfl fun hsplit => ?_
      show r.passed ++ (r.queue ++ bytes) = r.sent ++ bytes
      rw [← List.append_assoc, hsplit]
  | finish => exact .arrives hl rfl id
  | step s =>
      cases s with
      | call l => exact .calls (same_of_taken_nil rfl) rfl fun hs => TcpConnection.step_status hs hl
      | setCloseCallback => exact .calls (same_of_taken_nil rfl) rfl id
      | saveLifeMechanism => exact .calls (same_of_taken_nil rfl) rfl id
      | handle active guard =>
          by_cases hgone : r.endpoint.tied && !guard
          · have hnext : r.endpoint.handle active guard = r.endpoint := if_pos hgone
            refine .calls (same_of_taken_nil rfl) (congrArg Endpoint.pending hnext) ?_
            exact (congrArg (fun e : Endpoint => e.conn.status) hnext).trans
          · have hnext : r.endpoint.handle active guard =
                { r.endpoint with pending := callbacks active ++ r.endpoint.pending } :=
              if_neg hgone
            refine .handles (same_of_taken_nil rfl) active hl.2 hl.1 ?_
              (congrArg (fun e : Endpoint => e.conn.status) hnext).trans
            show (r.endpoint.handle active guard).pending = _
            rw [hnext, hl.1]
            exact List.append_nil _
      | callback a =>
          cases hpending : r.endpoint.pending with
          | nil =>
              have hnext : r.endpoint.next (.callback a) = r.endpoint :=
                Endpoint.callback_nil hpending a
              have htaken : r.taken (.callback a) = [] := by
                refine taken_callback_nil ?_ a
                rw [hpending]
                exact nofun
              exact .calls (same_of_taken_nil htaken) (congrArg Endpoint.pending hnext)
                (congrArg (fun e : Endpoint => e.conn.status) hnext).trans
          | cons first rest => exact change_callback h hl hpending
      | read a => exact hl.elim

/-! ## What holds in every run -/

theorem close_mem_callbacks {active : Events} (h : .close ∈ callbacks active) :
    active &&& Channel.kClose ≠ 0 := by
  intro hzero
  unfold callbacks at h
  rw [if_neg (not_not.2 hzero)] at h
  simp at h

theorem Reported.error_notMem {active : Events} (h : r.Reported active) :
    .error ∉ callbacks active := by
  unfold callbacks
  rw [if_neg (not_not.2 h.1)]
  simp

/-- `Handle` runs `Read` first. -/
theorem read_notMem_tail (active : Events) : .read ∉ (callbacks active).tail := by
  unfold callbacks
  split
  · split <;> split <;> split <;> simp
  · split <;> split <;> split <;> simp

/-- What every step keeps. -/
structure Tracked (r : Reception) : Prop where
  alive : Alive r.endpoint.conn
  split : r.passed ++ r.queue = r.sent
  announced : .close ∈ r.endpoint.pending → r.fin = true
  noError : .error ∉ r.endpoint.pending
  once : .read ∉ r.endpoint.pending.tail
  left : r.endpoint.conn.status ≠ .kConnecting → r.fin = true

theorem tracked_new (loop : LoopId) (fd readSize writeSize : Nat) (callback added : Bool) :
    (new loop fd readSize writeSize callback added).Tracked where
  alive := alive_new loop fd writeSize callback added
  split := rfl
  announced h := nomatch h
  noError h := nomatch h
  once h := nomatch h
  left h := absurd rfl h

theorem asked_read {e : Endpoint} (h : Alive e.conn) (a : Answer) : (e.read a).conn.Asked := by
  unfold Endpoint.read
  split
  · exact h.asked
  · dsimp only
    split
    · exact fun _ => h.close a.ctl
    · exact h.asked
    · split
      · exact h.asked
      · exact fun _ => h.close a.ctl

theorem Alive.next (h : Alive r.endpoint.conn) {l : ReceptionStep} (hl : r.Possible l) :
    Alive (r.next l).endpoint.conn := by
  cases l with
  | arrive bytes => exact h
  | finish => exact h
  | step s =>
      refine ⟨Endpoint.open_next h.opened s, ?_⟩
      show (r.endpoint.next s).conn.Asked
      by_cases hs : r.endpoint.conn.status = .kDisConnected
      · intro _ hs'
        exact nomatch ((Endpoint.still_next hs s).status.trans hs).symm.trans hs'
      have hsound := (h.opened hs).sound
      cases s with
      | call l =>
          refine hsound.asked_step h.asked fun hop => ?_
          have hkeeps : Keeps l.op := hl
          rw [hop] at hkeeps
          exact hkeeps
      | setCloseCallback => exact h.asked
      | saveLifeMechanism => exact h.asked
      | handle active guard =>
          show (r.endpoint.handle active guard).conn.Asked
          unfold Endpoint.handle
          split
          · exact h.asked
          · exact h.asked
      | read a => exact hl.elim
      | callback a =>
          show (r.endpoint.callback a).conn.Asked
          unfold Endpoint.callback
          cases r.endpoint.pending with
          | nil => exact h.asked
          | cons first rest =>
              cases first with
              | read => exact asked_read (e := { r.endpoint with pending := rest }) h a
              | write =>
                  exact hsound.asked_step (l := ⟨.writeFd a.written, a.ctl⟩) h.asked nofun
              | error => exact fun _ => h.close a.ctl
              | close => exact fun _ => h.close a.ctl

variable {r' : Reception} {l : ReceptionStep}

theorem Tracked.of_same (h : r.Tracked) (hsame : r.Same r') (halive : Alive r'.endpoint.conn)
    (hannounced : .close ∈ r'.endpoint.pending → r.fin = true)
    (hnoError : .error ∉ r'.endpoint.pending) (honce : .read ∉ r'.endpoint.pending.tail)
    (hleft : r'.endpoint.conn.status ≠ .kConnecting → r.fin = true) : r'.Tracked where
  alive := halive
  split := by
    rw [hsame.passed, hsame.queue, hsame.sent]
    exact h.split
  announced hclose := hsame.fin.trans (hannounced hclose)
  noError := hnoError
  once := honce
  left hs := hsame.fin.trans (hleft hs)

theorem Tracked.rest (h : r.Tracked) {first : Callback} {rest : List Callback}
    (hpending : r.endpoint.pending = first :: rest) :
    (.close ∈ rest → r.fin = true) ∧ .error ∉ rest ∧ .read ∉ rest := by
  have honce := h.once
  have hnoError := h.noError
  have hannounced := h.announced
  rw [hpending] at honce hnoError hannounced
  exact ⟨fun hclose => hannounced (List.mem_cons_of_mem _ hclose),
    fun herror => hnoError (List.mem_cons_of_mem _ herror), honce⟩

/-- A callback has run that has read nothing. -/
theorem Tracked.pop (h : r.Tracked) (hsame : r.Same r') (halive : Alive r'.endpoint.conn)
    {first : Callback} {rest : List Callback} (hpending : r.endpoint.pending = first :: rest)
    (hrest : r'.endpoint.pending = rest)
    (hleft : r'.endpoint.conn.status ≠ .kConnecting → r.fin = true) : r'.Tracked := by
  obtain ⟨hannounced, hnoError, honce⟩ := h.rest hpending
  subst hrest
  exact h.of_same hsame halive hannounced hnoError
    (fun hread => honce (List.mem_of_mem_tail hread)) hleft

theorem Tracked.change (h : r.Tracked) (hchange : r.Change l r')
    (halive : Alive r'.endpoint.conn) : r'.Tracked := by
  have hleft (hkeeps : r.Keeping r') (hs : r'.endpoint.conn.status ≠ .kConnecting) :
      r.fin = true := h.left fun hs' => hs (hkeeps hs')
  cases hchange with
  | arrives hopen hendpoint hsplit =>
      have hclosed : ¬r.fin = true := by
        rw [hopen]
        exact nofun
      constructor
      · exact halive
      · exact hsplit h.split
      · rw [hendpoint]
        exact fun hclose => absurd (h.announced hclose) hclosed
      · rw [hendpoint]
        exact h.noError
      · rw [hendpoint]
        exact h.once
      · rw [hendpoint]
        exact fun hs => absurd (h.left hs) hclosed
  | calls hsame hpending hkeeps =>
      refine h.of_same hsame halive ?_ ?_ ?_ (hleft hkeeps)
      · rw [hpending]
        exact h.announced
      · rw [hpending]
        exact h.noError
      · rw [hpending]
        exact h.once
  | handles hsame active hactive hidle hpending hkeeps =>
      refine h.of_same hsame halive ?_ ?_ ?_ (hleft hkeeps)
      · rw [hpending]
        exact fun hclose => (hactive.2 (close_mem_callbacks hclose)).1
      · rw [hpending]
        exact hactive.error_notMem
      · rw [hpending]
        exact read_notMem_tail active
  | writes hsame hpending hrest hkeeps => exact h.pop hsame halive hpending hrest (hleft hkeeps)
  | finds hsame hpending hrest hempty hkeeps =>
      refine h.pop hsame halive hpending hrest fun hs => ?_
      by_contra hfin
      exact hfin (hleft (hkeeps (Bool.not_eq_true _ ▸ hfin)) hs)
  | reads a hl hr' ha hreads hpending hqueue =>
      subst hl hr'
      obtain ⟨hpending', hconn, hqueue', hpassed, hsent, hfin⟩ :=
        next_read hreads hpending ha hqueue
      obtain ⟨hannounced, hnoError, honce⟩ := h.rest hpending
      constructor
      · exact halive
      · rw [hpassed, hqueue', hsent, List.append_assoc, List.take_append_drop]
        exact h.split
      · rw [hpending', hfin]
        exact hannounced
      · rw [hpending']
        exact hnoError
      · rw [hpending']
        exact fun hread => honce (List.mem_of_mem_tail hread)
      · rw [hconn, hfin]
        exact h.left
  | closes hsame hpending hrest _ =>
      exact h.pop hsame halive hpending hrest fun _ =>
        h.announced (hpending ▸ List.mem_cons_self)
  | fails herror => exact absurd herror h.noError

/-! ## While nothing has been left behind -/

/-- No close callback comes before the next `Read`, unless the queue is empty. -/
def Covered (queue : Bytes) : List Callback → Prop
  | [] => True
  | .read :: _ => True
  | .close :: _ => queue = []
  | .write :: rest | .error :: rest => Covered queue rest

theorem covered_nil (pending : List Callback) : Covered [] pending := by
  induction pending with
  | nil => trivial
  | cons first rest ih =>
      cases first with
      | read => trivial
      | close => rfl
      | write | error => exact ih

theorem covered_of_notMem {pending : List Callback} (h : .close ∉ pending) (queue : Bytes) :
    Covered queue pending := by
  induction pending with
  | nil => trivial
  | cons first rest ih =>
      rw [List.mem_cons, not_or] at h
      cases first with
      | read => trivial
      | close => exact absurd rfl h.1
      | write | error => exact ih h.2

theorem Reported.covered {active : Events} (h : r.Reported active) (queue : Bytes) :
    Covered queue (callbacks active) := by
  by_cases hread : active &&& Channel.kRead ≠ 0
  · unfold callbacks
    rw [if_pos hread]
    trivial
  · exact covered_of_notMem
      (fun hclose => hread (h.2 (close_mem_callbacks hclose)).2) queue

/-- The bytes that are still in the queue will be read. -/
structure Safe (r : Reception) : Prop where
  covered : Covered r.queue r.endpoint.pending
  gone : r.endpoint.conn.status ≠ .kConnecting → r.queue = []

/-- **Step lemma.** -/
theorem Safe.change (h : r.Safe) (htracked : r.Tracked) (hchange : r.Change l r')
    (hdrains : r.Drains l) : r'.Safe := by
  have hgone (hsame : r.Same r') (hkeeps : r.Keeping r')
      (hs : r'.endpoint.conn.status ≠ .kConnecting) : r'.queue = [] :=
    hsame.queue.trans (h.gone fun hs' => hs (hkeeps hs'))
  have hnil (hqueue : r'.queue = []) : r'.Safe := by
    refine ⟨?_, fun _ => hqueue⟩
    rw [hqueue]
    exact covered_nil _
  cases hchange with
  | arrives hopen hendpoint _ =>
      have hclosed : ¬r.fin = true := by
        rw [hopen]
        exact nofun
      constructor
      · rw [hendpoint]
        exact covered_of_notMem (fun hclose => hclosed (htracked.announced hclose)) _
      · rw [hendpoint]
        exact fun hs => absurd (htracked.left hs) hclosed
  | calls hsame hpending hkeeps =>
      refine ⟨?_, hgone hsame hkeeps⟩
      rw [hsame.queue, hpending]
      exact h.covered
  | handles hsame active hactive _ hpending hkeeps =>
      refine ⟨?_, hgone hsame hkeeps⟩
      rw [hpending]
      exact hactive.covered _
  | writes hsame hpending hrest hkeeps =>
      have hcovered := h.covered
      rw [hpending] at hcovered
      refine ⟨?_, hgone hsame hkeeps⟩
      rw [hsame.queue, hrest]
      exact hcovered
  | finds hsame hpending hrest hempty _ =>
      apply hnil
      rw [hsame.queue]
      by_cases hs : r.endpoint.conn.status = .kConnecting
      · exact hempty hs
      · exact h.gone hs
  | @reads a hl hr' ha hreads rest hpending hqueue =>
      subst hl hr'
      obtain ⟨hpending', hconn, -⟩ := next_read hreads hpending ha hqueue
      have hdrains' := hdrains hreads
      rw [hpending] at hdrains'
      constructor
      · rw [hpending']
        by_cases hclose : .close ∈ rest
        · rw [(drained_iff hreads hpending ha hqueue).2
            (hdrains' (List.mem_cons_of_mem _ hclose))]
          exact covered_nil _
        · exact covered_of_notMem hclose _
      · rw [hconn]
        exact fun hs => absurd hreads.2 hs
  | closes hsame hpending _ _ =>
      have hcovered := h.covered
      rw [hpending] at hcovered
      exact hnil (hsame.queue.trans hcovered)
  | fails herror => exact absurd herror htracked.noError

/-! ## Once something has been left behind -/

/-- There are bytes in the queue that will not be read. -/
structure Lost (r : Reception) : Prop where
  queue : r.queue ≠ []
  doomed : r.endpoint.conn.status = .kConnecting →
    .read ∉ r.endpoint.pending ∧ .close ∈ r.endpoint.pending

/-- **Step lemma.** -/
theorem Lost.change (h : r.Lost) (htracked : r.Tracked) (hchange : r.Change l r')
    (hleft : r'.endpoint.conn.status = .kConnecting → r.endpoint.conn.status = .kConnecting) :
    r'.Lost := by
  cases hchange with
  | arrives hopen _ _ =>
      have hfin : r.fin = true := by
        by_cases hs : r.endpoint.conn.status = .kConnecting
        · exact htracked.announced (h.doomed hs).2
        · exact htracked.left hs
      exact nomatch hopen.symm.trans hfin
  | calls hsame hpending _ =>
      refine ⟨hsame.queue ▸ h.queue, fun hs => ?_⟩
      rw [hpending]
      exact h.doomed (hleft hs)
  | handles hsame _ _ hidle _ _ =>
      refine ⟨hsame.queue ▸ h.queue, fun hs => ?_⟩
      have hclose := (h.doomed (hleft hs)).2
      rw [hidle] at hclose
      cases hclose
  | writes hsame hpending hrest _ =>
      refine ⟨hsame.queue ▸ h.queue, fun hs => ?_⟩
      have hdoomed := h.doomed (hleft hs)
      rw [hpending, List.mem_cons, List.mem_cons, not_or] at hdoomed
      rw [hrest]
      exact ⟨hdoomed.1.2, hdoomed.2.resolve_left nofun⟩
  | finds hsame hpending _ _ _ =>
      refine ⟨hsame.queue ▸ h.queue, fun hs => ?_⟩
      exact absurd (hpending ▸ List.mem_cons_self) (h.doomed (hleft hs)).1
  | reads _ _ _ _ hreads hpending _ =>
      exact absurd (hpending ▸ List.mem_cons_self) (h.doomed hreads.2).1
  | closes hsame _ _ hclosed => exact ⟨hsame.queue ▸ h.queue, fun hs => absurd hs hclosed⟩
  | fails herror => exact absurd herror htracked.noError

/-- A `Read` leaves bytes behind, and the close callback follows. -/
theorem Tracked.lost (h : r.Tracked) {l : ReceptionStep} (hl : r.Possible l)
    (hdrains : ¬r.Drains l) : (r.next l).Lost := by
  cases l with
  | arrive bytes => exact absurd trivial hdrains
  | finish => exact absurd trivial hdrains
  | step s =>
      cases s with
      | call _ => exact absurd trivial hdrains
      | setCloseCallback => exact absurd trivial hdrains
      | saveLifeMechanism => exact absurd trivial hdrains
      | handle _ _ => exact absurd trivial hdrains
      | read _ => exact absurd trivial hdrains
      | callback a =>
          simp only [Drains, Classical.not_imp, not_le] at hdrains
          obtain ⟨hreads, hclose, hlong⟩ := hdrains
          obtain ⟨rest, hpending⟩ : ∃ rest, r.endpoint.pending = .read :: rest :=
            List.head?_eq_some_iff.1 hreads.1
          have hqueue : r.queue ≠ [] := by
            intro hnil
            rw [hnil] at hlong
            exact absurd hlong (Nat.not_lt_zero _)
          rw [hpending, List.mem_cons] at hclose
          refine ⟨?_, fun _ => ?_⟩
          · rw [Ne, drained_iff hreads hpending hl hqueue]
            exact Nat.not_le.2 hlong
          · rw [(next_read hreads hpending hl hqueue).1]
            exact ⟨(h.rest hpending).2.2, hclose.resolve_left nofun⟩

/-! ## Runs -/

/-- No step takes a connection back to `kConnecting`. -/
theorem connecting_of_next (h : Alive r.endpoint.conn) (l : ReceptionStep)
    (hs : (r.next l).endpoint.conn.status = .kConnecting) :
    r.endpoint.conn.status = .kConnecting := by
  cases l with
  | arrive bytes => exact hs
  | finish => exact hs
  | step s =>
      have hle : r.endpoint.conn.status ≤ (r.endpoint.next s).conn.status :=
        Endpoint.status_le_next h.opened s
      rw [show (r.endpoint.next s).conn.status = .kConnecting from hs] at hle
      cases hstatus : r.endpoint.conn.status with
      | kConnecting => rfl
      | kDisConnecting =>
          rw [hstatus] at hle
          exact absurd hle (Nat.not_succ_le_zero 0)
      | kDisConnected =>
          rw [hstatus] at hle
          exact absurd hle (Nat.not_succ_le_zero 1)

/-- **Run lemma.** -/
theorem run_tracked (loop : LoopId) (fd readSize writeSize : Nat) (callback added : Bool)
    (ls : List ReceptionStep)
    (hlegal : reception.Legal (new loop fd readSize writeSize callback added) ls) :
    let start := new loop fd readSize writeSize callback added
    let r := reception.run start ls
    r.Tracked ∧ (reception.Each Drains start ls → r.Safe) ∧
      (¬reception.Each Drains start ls → r.Lost) := by
  intro start r
  let I (ls : List ReceptionStep) (r : Reception) : Prop :=
    r.Tracked ∧ (reception.Each Drains start ls → r.Safe) ∧
      (¬reception.Each Drains start ls → r.Lost)
  refine reception.run_invariant_history (I := I) ?_ ?_ ls hlegal
  · refine ⟨tracked_new .., fun _ => ⟨trivial, fun hs => absurd rfl hs⟩, fun hnone => ?_⟩
    exact absurd (reception.each_nil start) hnone
  · rintro ls l hlegal ⟨htracked, hsafe, hlost⟩
    have hl := Machine.Legal.enabled_at reception hlegal
    have hchange := change_of_possible htracked.alive hl
    refine ⟨htracked.change hchange (htracked.alive.next hl), ?_, ?_⟩
    · intro heach
      rw [reception.each_concat] at heach
      exact (hsafe heach.1).change htracked hchange heach.2
    · intro hnot
      rw [reception.each_concat, Classical.not_and_iff_not_or_not] at hnot
      rcases hnot with hearlier | hnow
      · exact (hlost hearlier).change htracked hchange (connecting_of_next htracked.alive l)
      · exact htracked.lost hl hnow

/-- **What was sent before a half-close is kept** exactly if no `Read` that the close callback
follows has found more in the queue than it could store: in every run after which the
connection has left `kConnecting`, the `FIN` has come, and everything that arrived has been
passed on if and only if all steps of the run were of this kind. -/
theorem half_close_keeps_iff (loop : LoopId) (fd readSize writeSize : Nat) (callback added : Bool)
    (ls : List ReceptionStep)
    (hlegal : reception.Legal (new loop fd readSize writeSize callback added) ls) :
    let start := new loop fd readSize writeSize callback added
    let r := reception.run start ls
    r.endpoint.conn.status ≠ .kConnecting →
      r.fin = true ∧ (r.passed = r.sent ↔ reception.Each Drains start ls) := by
  intro start r hleft
  obtain ⟨htracked, hsafe, hlost⟩ := run_tracked loop fd readSize writeSize callback added ls hlegal
  have hsplit : r.passed ++ r.queue = r.sent := htracked.split
  refine ⟨htracked.left hleft, ?_, ?_⟩
  · intro hpassed
    by_contra hnot
    rw [hpassed] at hsplit
    exact (hlost hnot).queue (List.append_right_eq_self.1 hsplit)
  · intro heach
    rw [(hsafe heach).gone hleft, List.append_nil] at hsplit
    exact hsplit

/-- Three bytes and the `FIN` in one dispatch. -/
theorem half_close_keeps_iff_short :
    let a (data : Bytes) : Answer := ⟨.ok data, Buffer.new 4, .ok 0, ⟨true, true⟩⟩
    let r := reception.run (new 0 5 4 4 true true)
      [.step (.call ⟨.activate, ⟨true, true⟩⟩), .arrive [1, 2, 3], .finish,
        .step (.handle (Channel.kRead ||| Channel.kClose) true),
        .step (.callback (a [1, 2, 3])), .step (.callback (a []))]
    r.endpoint.conn.status ≠ .kConnecting ∧ r.passed = [1, 2, 3] := by
  intro a r
  have hleft : r.endpoint.conn.status ≠ .kConnecting := by decide
  exact ⟨hleft, (half_close_keeps_iff 0 5 4 4 true true _ (by decide) hleft).2.2 (by decide)⟩

/-- A new connection is sent `bytes` and the `FIN` before its loop polls. -/
def pollLate (bytes : Bytes) : List ReceptionStep :=
  let left := Buffer.new 1024
  let ctl : EpollCtl := ⟨true, true⟩
  [.step (.call ⟨.activate, ctl⟩), .arrive bytes, .finish,
    .step (.handle (Channel.kRead ||| Channel.kClose) true),
    .step (.callback ⟨.ok (bytes.take 66560), left, .ok 0, ctl⟩),
    .step (.callback ⟨.ok [], left, .ok 0, ctl⟩)]

/-- More than fits is lost: 66560 bytes for a read buffer of 1024. -/
theorem pollLate_loses {bytes : Bytes} (h : 66560 < bytes.length) :
    let r := new 0 5 1024 1024 true true
    reception.Legal r (pollLate bytes) ∧
      (reception.run r (pollLate bytes)).endpoint.conn.status = .kDisConnected ∧
      (reception.run r (pollLate bytes)).passed = bytes.take 66560 ∧
      (reception.run r (pollLate bytes)).sent = bytes := by
  intro r
  let ctl : EpollCtl := ⟨true, true⟩
  let a : Answer := ⟨.ok (bytes.take 66560), Buffer.new 1024, .ok 0, ctl⟩
  let r₁ := reception.run r ((pollLate bytes).take 4)
  have hne : bytes ≠ [] := by
    rintro rfl
    exact absurd h (by decide)
  have hroom : readRoom r₁.endpoint.readBuffer = 66560 := by
    show readRoom (Buffer.new 1024) = 66560
    have hlength : (Buffer.new 1024).buffer.length = 1024 := by simp [Buffer.new, Buffer.resizeTo]
    unfold readRoom
    rw [hlength]
    rfl
  have hpending : r₁.endpoint.pending = [.read, .close] := rfl
  have hstatus : r₁.endpoint.conn.status = .kConnecting := rfl
  have hreads : r₁.endpoint.Reads := ⟨congrArg List.head? hpending, hstatus⟩
  have ha : r₁.Answered a := by
    refine ⟨fun _ => ?_, trivial⟩
    rw [hroom]
    exact (if_neg hne).symm
  rcases next_read hreads hpending ha hne with ⟨hpending', hconn, _, hpassed, hsent, _⟩
  rw [hroom] at hpassed
  let r₂ := r₁.next (.step (.callback a))
  have hclose : r₂.endpoint.next (.callback ⟨.ok [], Buffer.new 1024, .ok 0, ctl⟩) =
      ({ r₂.endpoint with pending := [] }).update (r₂.endpoint.conn.close ctl) :=
    Endpoint.callback_close hpending' _
  have hreads₂ : ¬ r₂.endpoint.Reads := by
    rintro ⟨hhead, _⟩
    rw [hpending'] at hhead
    cases hhead
  have hlast : r₂.next (.step (.callback ⟨.ok [], Buffer.new 1024, .ok 0, ctl⟩)) =
      { r₂ with
        endpoint := ({ r₂.endpoint with pending := [] }).update (r₂.endpoint.conn.close ctl) } := by
    rw [next_of_taken_nil (show r₂.taken (.callback _) = [] from if_neg hreads₂), hclose]
  have hrun : reception.run r (pollLate bytes) =
      r₂.next (.step (.callback ⟨.ok [], Buffer.new 1024, .ok 0, ctl⟩)) := rfl
  rw [hrun, hlast]
  refine ⟨?_, ?_, hpassed, hsent⟩
  · exact ⟨trivial, rfl, rfl, ⟨rfl, by decide, fun _ => ⟨rfl, by decide⟩⟩, ha,
      ⟨fun hreads₂' => absurd hreads₂' hreads₂, trivial⟩, trivial⟩
  · show (r₂.endpoint.conn.close ctl).status = .kDisConnected
    rw [hconn]
    rfl

/-- One byte too many. -/
theorem half_close_loses :
    let r := new 0 5 1024 1024 true true
    let ls := pollLate (List.replicate 66561 0)
    reception.Legal r ls ∧
      (reception.run r ls).endpoint.conn.status ≠ .kConnecting ∧
      (reception.run r ls).passed ≠ (reception.run r ls).sent := by
  intro r ls
  have hlength : (List.replicate 66561 (0 : UInt8)).length = 66561 := List.length_replicate
  have hlong : 66560 < (List.replicate 66561 (0 : UInt8)).length := by
    rw [hlength]
    decide
  rcases pollLate_loses hlong with ⟨hlegal, hstatus, hpassed, hsent⟩
  refine ⟨hlegal, ?_, ?_⟩
  · rw [hstatus]
    decide
  · rw [hpassed, hsent]
    intro heq
    have hcount := congrArg List.length heq
    rw [List.length_take, hlength] at hcount
    revert hcount
    decide

end Reception

end Adachi.Network
