import Adachi.Lib.Ledger
import Adachi.Network.Registry

/-!
# Descriptors and their holders

The kernel returns the smallest number that is free, so the descriptor of a connection that has
been closed is soon that of another one, and a `close(2)`, a `write(2)` or an `epoll_ctl` that
comes too late, or twice, would hit a stranger.  The number of an accepted connection passes
through several hands before a `Socket` owns it (`src/acceptor.cpp`, `src/tcpserver.cpp`,
`src/socket.cpp`): the callback of the acceptor has it after `accept4`, a set-up task captures it
as a plain `int`, and the constructor of `TcpConnection` takes it from there.

The server is that of `Adachi.Network.TcpServer`; here it runs next to the descriptor table of the
kernel and to the rest of the process, which opens and closes descriptors of its own.  The last
`shared_ptr` to a connection that goes away runs `~TcpConnection` and `~Socket`.

## Main results

* `held_by_one`: in every run each open descriptor has exactly one holder.
* `closed_by_holder`: every `close(2)` is for an open descriptor, by its holder.
* `calls_own_descriptor`: a connection uses its own descriptor, and none once it is closed.
* `nothing_left_open`: when the registry is empty and nothing is in flight, every connection's
  descriptor has been closed.
-/

namespace Adachi.Network

open Adachi.Io

/-! ## States -/

/-- Who has to close an open descriptor: the callback of the acceptor, a set-up task that has not
run, the `Socket` of a connection, or the rest of the process. -/
inductive Holder (ι : Type) where
  | acceptor
  | setUp
  | connection (i : ι)
  | other
  deriving DecidableEq

/-- `opened` is the table of the kernel.  `hand` is the descriptor that the callback of the
acceptor has, and `tasks` those that set-up tasks have captured. -/
structure Descriptors (ι : Type) where
  opened : Finset Nat
  hand : Option Nat
  tasks : List Nat
  others : Finset Nat
  server : TcpServer ι

/-- `accept` is an `accept4` that succeeds.  Then the callback closes the descriptor (`refuse`) or
submits the set-up.  `destroy` is the end of the last `shared_ptr` to a connection. -/
inductive DescriptorStep (ι : Type) where
  | accept (fd : Nat)
  | refuse
  | submit
  | openOther (fd : Nat)
  | closeOther (fd : Nat)
  | server (l : ServerStep ι)
  | destroy (i : ι)

/-- The calls of `close(2)` in a step of a connection -/
def TcpConnection.closes (c : TcpConnection) (l : Label) : List Nat :=
  List.replicate ((c.step l).effects.count .closed - c.effects.count .closed) c.socket.fd.toNat

/-- The calls of `close(2)` in `~Socket` -/
def Socket.closes (s : Socket) : List Nat := if 0 ≤ s.fd then [s.fd.toNat] else []

/-- The connection has been made, and its `Socket` has the descriptor. -/
def Link.Holds (link : Link) (fd : Nat) : Prop :=
  link.stage ≠ .accepted ∧ link.conn.socket.fd = fd

/-- The descriptor that a set-up task gives to the connection it makes -/
def ServerStep.takes {ι : Type} : ServerStep ι → List Nat
  | .construct _ fd => [fd]
  | _ => []

namespace DescriptorStep

variable {ι : Type}

/-- The descriptors that the kernel returns -/
def opens : DescriptorStep ι → List Nat
  | .accept fd => [fd]
  | .openOther fd => [fd]
  | _ => []

/-- For whom a step makes its calls of `close(2)` -/
def closer : DescriptorStep ι → Holder ι
  | .refuse => .acceptor
  | .server (.work i _) => .connection i
  | .destroy i => .connection i
  | _ => .other

end DescriptorStep

namespace Descriptors

variable {ι : Type}

def new (others : Finset Nat) : Descriptors ι where
  opened := others
  hand := none
  tasks := []
  others := others
  server := .new

def Holds (s : Descriptors ι) : Holder ι → Nat → Prop
  | .acceptor, fd => s.hand = some fd
  | .setUp, fd => fd ∈ s.tasks
  | .connection i, fd => (s.server.links i).Holds fd
  | .other, fd => fd ∈ s.others

/-! ## Steps -/

/-- The calls of `close(2)` that a step makes -/
def closes (s : Descriptors ι) : DescriptorStep ι → List Nat
  | .refuse => s.hand.toList
  | .closeOther fd => [fd]
  | .server (.work i l) => (s.server.links i).conn.closes l
  | .destroy i => (s.server.links i).conn.socket.closes
  | _ => []

variable [DecidableEq ι]

/-- What the program does with the numbers it keeps -/
def move (g : Settings ι) (s : Descriptors ι) : DescriptorStep ι → Descriptors ι
  | .accept fd => { s with hand := some fd }
  | .refuse => { s with hand := none }
  | .submit => { s with hand := none, tasks := s.tasks ++ s.hand.toList }
  | .openOther fd => { s with others := insert fd s.others }
  | .closeOther fd => { s with others := s.others.erase fd }
  | .server l => { s with server := s.server.next g l, tasks := s.tasks.diff l.takes }
  | .destroy _ => s

def next (g : Settings ι) (s : Descriptors ι) (l : DescriptorStep ι) : Descriptors ι :=
  { s.move g l with opened := (s.opened ∪ l.opens.toFinset) \ (s.closes l).toFinset }

/-- The kernel returns a number that is free.  The acceptor takes one connection at a time, a
connection gets a descriptor that was submitted for one, and an object is destroyed when no
`shared_ptr` to it is left. -/
def Possible (g : Settings ι) (s : Descriptors ι) : DescriptorStep ι → Prop
  | .accept fd => s.hand = none ∧ fd ∉ s.opened
  | .refuse => s.hand.isSome
  | .submit => s.hand.isSome
  | .openOther fd => fd ∉ s.opened
  | .closeOther fd => fd ∈ s.others
  | .server l => s.server.Possible g l ∧ ∀ fd ∈ l.takes, fd ∈ s.tasks
  | .destroy i => (s.server.links i).stage ≠ .accepted ∧ ¬s.server.Alive g i

instance (g : Settings ι) (s : Descriptors ι) :
    (l : DescriptorStep ι) → Decidable (s.Possible g l)
  | .accept fd => inferInstanceAs (Decidable (s.hand = none ∧ fd ∉ s.opened))
  | .refuse | .submit => inferInstanceAs (Decidable (s.hand.isSome = true))
  | .openOther fd => inferInstanceAs (Decidable (fd ∉ s.opened))
  | .closeOther fd => inferInstanceAs (Decidable (fd ∈ s.others))
  | .server l =>
      inferInstanceAs (Decidable (s.server.Possible g l ∧ ∀ fd ∈ l.takes, fd ∈ s.tasks))
  | .destroy i => inferInstanceAs
      (Decidable ((s.server.links i).stage ≠ .accepted ∧ ¬s.server.Alive g i))

end Descriptors

def descriptors {ι : Type} [DecidableEq ι] (g : Settings ι) :
    Machine (Descriptors ι) (DescriptorStep ι) where
  next := Descriptors.next g
  enabled := Descriptors.Possible g

instance {ι : Type} [DecidableEq ι] (g : Settings ι) (s : Descriptors ι) (l : DescriptorStep ι) :
    Decidable ((descriptors g).enabled s l) :=
  inferInstanceAs (Decidable (s.Possible g l))

/-! ## The descriptor of one connection -/

namespace TcpConnection

variable {c : TcpConnection} {ctl : EpollCtl}

theorem closeInThread_socket (hopen : (c.closeInThread ctl).status ≠ .kDisConnected) :
    (c.closeInThread ctl).socket = c.socket := by
  unfold closeInThread at hopen ⊢
  split
  · rfl
  · rename_i hs
    rw [if_neg hs] at hopen
    split
    · rename_i hempty
      rw [if_pos hempty] at hopen
      exact absurd rfl hopen
    · rfl

theorem close_socket (hopen : (c.close ctl).status ≠ .kDisConnected) :
    (c.close ctl).socket = c.socket := by
  unfold close at hopen ⊢
  by_cases hrequested : c.closeRequested = true
  · rw [if_pos hrequested]
  · rw [if_neg hrequested] at hopen ⊢
    by_cases howner : c.channel.owner = none
    · simp [howner]
    · simp only [howner, if_false] at hopen ⊢
      exact closeInThread_socket hopen

theorem activateInThread_socket : (c.activateInThread ctl).socket = c.socket := by
  unfold activateInThread
  split
  · rfl
  · rfl

theorem putMessage_socket {message : Bytes} {r : SysResult Nat}
    (hopen : (c.putMessage message r ctl).status ≠ .kDisConnected) :
    (c.putMessage message r ctl).socket = c.socket := by
  unfold putMessage at hopen ⊢
  by_cases hempty : c.writeBuffer.empty = true
  · rw [if_pos hempty] at hopen ⊢
    cases r with
    | ok n =>
        dsimp only
        split
        · rfl
        · rfl
    | error e =>
        dsimp only at hopen ⊢
        split
        · rename_i hfatal
          rw [if_pos hfatal] at hopen
          exact closeInThread_socket hopen
        · rfl
  · rw [if_neg hempty]

theorem writeInThread_socket {message : Bytes} {r : SysResult Nat}
    (hopen : (c.writeInThread message r ctl).status ≠ .kDisConnected) :
    (c.writeInThread message r ctl).socket = c.socket := by
  unfold writeInThread at hopen ⊢
  by_cases hs : c.status ≠ .kConnecting
  · rw [if_pos hs]
  · rw [if_neg hs] at hopen ⊢
    dsimp only at hopen ⊢
    split
    · rename_i hfull
      rw [if_pos hfull] at hopen
      exact putMessage_socket hopen
    · rename_i hempty
      rw [if_neg hempty] at hopen
      exact putMessage_socket hopen

theorem flush_socket {r : SysResult Nat} (hopen : (c.flush r ctl).status ≠ .kDisConnected) :
    (c.flush r ctl).socket = c.socket := by
  cases r with
  | ok n => rfl
  | error e =>
      rw [flush_error] at hopen ⊢
      split
      · rename_i hfatal
        rw [if_pos hfatal] at hopen
        exact close_socket hopen
      · rfl

theorem flushed_socket (hopen : (c.flushed ctl).status ≠ .kDisConnected) :
    (c.flushed ctl).socket = c.socket ∧ c.status ≠ .kDisConnected := by
  by_cases hs : c.status = .kDisConnecting
  · unfold flushed at hopen
    dsimp only at hopen
    rw [if_pos (by rw [unsetWrite_status, hs])] at hopen
    exact absurd rfl hopen
  · rw [flushed_of_ne hs] at hopen ⊢
    rw [unsetWrite_status] at hopen
    exact ⟨unsetWrite_socket c ctl, hopen⟩

theorem writeFd_socket {r : SysResult Nat} (hopen : (c.writeFd r ctl).status ≠ .kDisConnected) :
    (c.writeFd r ctl).socket = c.socket := by
  unfold writeFd at hopen ⊢
  by_cases hs : c.status = .kDisConnected
  · rw [if_pos hs]
  · rw [if_neg hs] at hopen ⊢
    dsimp only at hopen ⊢
    split
    · rename_i hempty
      rw [if_pos hempty] at hopen
      obtain ⟨hsocket, hflush⟩ := flushed_socket hopen
      rw [hsocket, flush_socket hflush]
    · rename_i hfull
      rw [if_neg hfull] at hopen
      exact flush_socket hopen

/-- The descriptor is given up only in the step that disconnects. -/
theorem step_socket {l : Label} (hopen : (c.step l).status ≠ .kDisConnected) :
    (c.step l).socket = c.socket := by
  obtain ⟨op, ctl⟩ := l
  cases op with
  | activate =>
      show (c.activate ctl).socket = _
      unfold activate
      split
      · rfl
      · exact activateInThread_socket
  | activateInThread => exact activateInThread_socket
  | write message r =>
      change (c.write message r ctl).status ≠ _ at hopen
      show (c.write message r ctl).socket = _
      unfold write at hopen ⊢
      split
      · rfl
      · rename_i howner
        rw [if_neg howner] at hopen
        exact writeInThread_socket hopen
  | writeInThread message r => exact writeInThread_socket hopen
  | writeFd r => exact writeFd_socket hopen
  | close => exact close_socket hopen
  | requestClose => rfl
  | closeInThread => exact closeInThread_socket hopen

end TcpConnection

theorem count_closed_of_writes {es : List Effect} (h : ∀ e ∈ es, e.isWrite) :
    es.count .closed = 0 := by
  rw [List.count_eq_zero]
  intro hmem
  cases h _ hmem

theorem count_closed_teardowns {closeCallback : Bool} {last : List Effect}
    (h : last ∈ teardowns closeCallback) : last.count .closed = 1 := by
  cases closeCallback with
  | true =>
      have hall : ∀ last ∈ teardowns true, last.count .closed = 1 := by decide
      exact hall last h
  | false =>
      have hall : ∀ last ∈ teardowns false, last.count .closed = 1 := by decide
      exact hall last h

namespace LinkOk

variable {link : Link}

/-- A disconnected connection does nothing any more. -/
theorem silent (h : LinkOk link) (hs : link.conn.status = .kDisConnected) (l : Label) :
    link.conn.closes l = [] ∧ link.conn.channel.owner = none ∧
      ∃ closeRequested, link.conn.step l = { link.conn with closeRequested := closeRequested } := by
  obtain ⟨closeRequested, heq⟩ := TcpConnection.step_disconnected hs l
  refine ⟨?_, (h.unregistered hs).1, closeRequested, heq⟩
  unfold TcpConnection.closes
  rw [heq, Nat.sub_self]
  rfl

/-- **Step lemma**: a step leaves the descriptor alone, or closes it once and gives it up. -/
theorem closes_step (h : LinkOk link) (l : Label) :
    (link.conn.closes l = [] ∧ (link.conn.step l).socket = link.conn.socket) ∨
      ∃ fd : Nat, link.conn.socket.fd = fd ∧ link.conn.closes l = [fd] ∧
        (link.conn.step l).socket.fd = -1 := by
  by_cases hs : link.conn.status = .kDisConnected
  · obtain ⟨hnone, _, closeRequested, heq⟩ := h.silent hs l
    exact .inl ⟨hnone, by rw [heq]⟩
  have hopen := h.isOpen hs
  have hbefore : link.conn.effects.count .closed = 0 := count_closed_of_writes hopen.writes
  obtain ⟨_, hstill, htorn⟩ := hopen.moves hs (.calls l)
  unfold TcpConnection.closes
  by_cases hs' : (link.conn.step l).status = .kDisConnected
  · obtain ⟨_, hfd, writes, last, hwrites, hlast, heffects⟩ := htorn hs'
    refine .inr ⟨link.conn.socket.fd.toNat, ?_, ?_, hfd⟩
    · exact (Int.toNat_of_nonneg (hopen.sound.connected hs).2).symm
    · rw [heffects, List.count_append, count_closed_of_writes hwrites,
        count_closed_teardowns hlast, hbefore]
      rfl
  · refine .inl ⟨?_, TcpConnection.step_socket hs'⟩
    rw [count_closed_of_writes (hstill hs').writes, hbefore]
    rfl

end LinkOk

/-! ## The descriptors that links have -/

theorem Link.holds_congr {link link' : Link} (hmade : link.stage ≠ .accepted)
    (hmade' : link'.stage ≠ .accepted) (hsocket : link'.conn.socket = link.conn.socket) (fd : Nat) :
    link'.Holds fd ↔ link.Holds fd := by
  unfold Link.Holds
  rw [hsocket]
  exact and_congr_left' (iff_of_true hmade' hmade)

namespace TcpServer

variable {ι : Type} [DecidableEq ι] {g : Settings ι} {s : TcpServer ι} {i : ι}

theorem holds_update {link : Link} (hlink : ∀ fd, link.Holds fd ↔ (s.links i).Holds fd) (j : ι)
    (fd : Nat) : (Function.update s.links i link j).Holds fd ↔ (s.links j).Holds fd := by
  by_cases hne : j = i
  · subst hne
    rw [Function.update_self]
    exact hlink fd
  · rw [Function.update_of_ne hne]

/-- A step of the server that neither makes a connection nor runs one of its functions -/
def Moves : ServerStep ι → Prop
  | .construct _ _ => False
  | .work _ _ => False
  | _ => True

/-- Such a step leaves all descriptors where they are. -/
theorem holds_next {l : ServerStep ι} (hl : s.Possible g l) (hmoves : Moves l) (j : ι) (fd : Nat) :
    ((s.next g l).links j).Holds fd ↔ (s.links j).Holds fd := by
  cases l with
  | construct | work => exact hmoves.elim
  | submitInsert i =>
      have hstage : (s.links i).stage = .constructed := hl
      show (Function.update s.links i _ j).Holds fd ↔ _
      refine holds_update ?_ j fd
      exact Link.holds_congr (by simp [hstage]) nofun rfl
  | resume i =>
      show (Function.update s.links i _ j).Holds fd ↔ _
      refine holds_update ?_ j fd
      exact Link.holds_congr (by simp [hl.1]) nofun rfl
  | setCloseCallback i =>
      have hstage : (s.links i).stage = .inserted := hl
      show (Function.update s.links i _ j).Holds fd ↔ _
      refine holds_update ?_ j fd
      exact Link.holds_congr (by simp [hstage]) nofun rfl
  | finishSetUp i =>
      show (Function.update s.links i _ j).Holds fd ↔ _
      refine holds_update ?_ j fd
      exact Link.holds_congr (by simp [hl.1]) nofun rfl
  | submitErase i | closeDone i =>
      show (Function.update s.links i _ j).Holds fd ↔ _
      refine holds_update ?_ j fd
      exact fun _ => Iff.rfl
  | swap | release | poll | handled => exact Iff.rfl
  | run =>
      show (s.run.links j).Holds fd ↔ _
      unfold TcpServer.run
      split
      · exact Iff.rfl
      · show (Function.update s.links _ _ j).Holds fd ↔ _
        refine holds_update ?_ j fd
        exact fun _ => Iff.rfl
      · exact Iff.rfl
  | handle k =>
      show ((s.handle k).links j).Holds fd ↔ _
      unfold TcpServer.handle
      split
      · exact Iff.rfl
      · exact Iff.rfl

end TcpServer

/-! ## Every step keeps the ledger -/

namespace Descriptors

variable {ι : Type}

/-- What a step enters in the ledger of descriptors -/
def entries (s : Descriptors ι) (l : DescriptorStep ι) : List (LedgerEntry (Holder ι) Nat) :=
  match l with
  | .accept fd => [.acquire .acceptor fd]
  | .openOther fd => [.acquire .other fd]
  | .submit => s.hand.toList.map fun fd => .transfer .acceptor .setUp fd
  | .server (.construct i fd) => [.transfer .setUp (.connection i) fd]
  | _ => (s.closes l).map fun fd => .release l.closer fd

variable [DecidableEq ι] {g : Settings ι} {s : Descriptors ι} {own : Nat → Option (Holder ι)}

/-- **The invariant of all runs.** -/
structure Kept (s : Descriptors ι) (own : Nat → Option (Holder ι)) : Prop where
  owners : Ledger.Matches own s.opened s.Holds
  tasks : s.tasks.Nodup
  registered : s.server.Registered

/-- The entries of a step are legal, and the ledger is right after them. -/
def Enters (g : Settings ι) (s : Descriptors ι) (own : Nat → Option (Holder ι))
    (l : DescriptorStep ι) : Prop :=
  (ledger (Holder ι) Nat).Legal own (s.entries l) ∧
    (s.next g l).Kept ((ledger (Holder ι) Nat).run own (s.entries l))

namespace Kept

variable {fd : Nat}

/-! ### The acceptor -/

theorem accept (h : s.Kept own) (hl : s.Possible g (.accept fd)) :
    s.Enters g own (.accept fd) := by
  have hhand : s.hand = none := hl.1
  have hgains : ∀ r, (s.next g (.accept fd)).Holds .acceptor r ↔ s.Holds .acceptor r ∨ r = fd := by
    intro r
    show some fd = some r ↔ s.hand = some r ∨ r = fd
    simp [hhand, eq_comm]
  have hother : ∀ x, x ≠ .acceptor → ∀ r, (s.next g (.accept fd)).Holds x r ↔ s.Holds x r := by
    intro x hx
    cases x with
    | acceptor => exact absurd rfl hx
    | setUp | connection | other => exact fun _ => Iff.rfl
  obtain ⟨hlegal, hmatches⟩ := h.owners.acquire hl.2 hgains hother
  have hopened : (s.next g (.accept fd)).opened = insert fd s.opened := by
    show (s.opened ∪ [fd].toFinset) \ [].toFinset = _
    simp
  refine ⟨hlegal, ?_, h.tasks, h.registered⟩
  rw [hopened]
  exact hmatches

theorem refuse (h : s.Kept own) (hhand : s.Holds .acceptor fd) :
    s.Enters g own .refuse := by
  have hfd : s.hand = some fd := hhand
  have hloses : ∀ r, (s.next g .refuse).Holds .acceptor r ↔ s.Holds .acceptor r ∧ r ≠ fd := by
    intro r
    show none = some r ↔ s.hand = some r ∧ r ≠ fd
    simp [hfd, eq_comm]
  have hother : ∀ x, x ≠ .acceptor → ∀ r, (s.next g .refuse).Holds x r ↔ s.Holds x r := by
    intro x hx
    cases x with
    | acceptor => exact absurd rfl hx
    | setUp | connection | other => exact fun _ => Iff.rfl
  have hentries : s.entries .refuse = [.release .acceptor fd] := by
    show s.hand.toList.map _ = _
    rw [hfd]
    rfl
  have hopened : (s.next g .refuse).opened = s.opened.erase fd := by
    show (s.opened ∪ [].toFinset) \ s.hand.toList.toFinset = _
    simp [hfd, Finset.sdiff_singleton_eq_erase]
  obtain ⟨hlegal, hmatches⟩ := h.owners.release hhand hloses hother
  unfold Enters
  rw [hentries]
  refine ⟨hlegal, ?_, h.tasks, h.registered⟩
  rw [hopened]
  exact hmatches

theorem submit (h : s.Kept own) (hhand : s.Holds .acceptor fd) :
    s.Enters g own .submit := by
  have hfd : s.hand = some fd := hhand
  have htasks : (s.next g .submit).tasks = s.tasks ++ [fd] := by
    show s.tasks ++ s.hand.toList = _
    rw [hfd]
    rfl
  have hloses : ∀ r, (s.next g .submit).Holds .acceptor r ↔ s.Holds .acceptor r ∧ r ≠ fd := by
    intro r
    show none = some r ↔ s.hand = some r ∧ r ≠ fd
    simp [hfd, eq_comm]
  have hgains : ∀ r, (s.next g .submit).Holds .setUp r ↔ s.Holds .setUp r ∨ r = fd := by
    intro r
    show r ∈ (s.next g .submit).tasks ↔ r ∈ s.tasks ∨ r = fd
    rw [htasks]
    simp
  have hother : ∀ x, x ≠ .acceptor → x ≠ .setUp → ∀ r,
      (s.next g .submit).Holds x r ↔ s.Holds x r := by
    intro x hx hx'
    cases x with
    | acceptor => exact absurd rfl hx
    | setUp => exact absurd rfl hx'
    | connection | other => exact fun _ => Iff.rfl
  have hentries : s.entries .submit = [.transfer .acceptor .setUp fd] := by
    show s.hand.toList.map _ = _
    rw [hfd]
    rfl
  have hopened : (s.next g .submit).opened = s.opened := by
    show (s.opened ∪ [].toFinset) \ [].toFinset = _
    simp
  have hnew : fd ∉ s.tasks := by
    intro hmem
    have hheld : s.Holds .setUp fd := hmem
    cases h.owners.unique hhand hheld
  obtain ⟨hlegal, hmatches⟩ := h.owners.transfer hhand hloses hgains hother (by simp)
  unfold Enters
  rw [hentries]
  refine ⟨hlegal, ?_, ?_, h.registered⟩
  · rw [hopened]
    exact hmatches
  · rw [htasks]
    exact List.nodup_append.2
      ⟨h.tasks, List.nodup_singleton fd, fun r hr r' hr' => by
        rw [List.mem_singleton.1 hr']
        exact fun heq => hnew (heq ▸ hr)⟩

/-! ### The rest of the process -/

theorem openOther (h : s.Kept own) (hfree : fd ∉ s.opened) :
    s.Enters g own (.openOther fd) := by
  have hgains : ∀ r, (s.next g (.openOther fd)).Holds .other r ↔ s.Holds .other r ∨ r = fd := by
    intro r
    show r ∈ insert fd s.others ↔ r ∈ s.others ∨ r = fd
    rw [Finset.mem_insert, or_comm]
  have hother : ∀ x, x ≠ .other → ∀ r, (s.next g (.openOther fd)).Holds x r ↔ s.Holds x r := by
    intro x hx
    cases x with
    | other => exact absurd rfl hx
    | acceptor | setUp | connection => exact fun _ => Iff.rfl
  have hopened : (s.next g (.openOther fd)).opened = insert fd s.opened := by
    show (s.opened ∪ [fd].toFinset) \ [].toFinset = _
    simp
  obtain ⟨hlegal, hmatches⟩ := h.owners.acquire hfree hgains hother
  refine ⟨hlegal, ?_, h.tasks, h.registered⟩
  rw [hopened]
  exact hmatches

theorem closeOther (h : s.Kept own) (hheld : s.Holds .other fd) :
    s.Enters g own (.closeOther fd) := by
  have hloses : ∀ r, (s.next g (.closeOther fd)).Holds .other r ↔ s.Holds .other r ∧ r ≠ fd := by
    intro r
    show r ∈ s.others.erase fd ↔ r ∈ s.others ∧ r ≠ fd
    rw [Finset.mem_erase, and_comm]
  have hother : ∀ x, x ≠ .other → ∀ r, (s.next g (.closeOther fd)).Holds x r ↔ s.Holds x r := by
    intro x hx
    cases x with
    | other => exact absurd rfl hx
    | acceptor | setUp | connection => exact fun _ => Iff.rfl
  have hopened : (s.next g (.closeOther fd)).opened = s.opened.erase fd := by
    show (s.opened ∪ [].toFinset) \ [fd].toFinset = _
    simp [Finset.sdiff_singleton_eq_erase]
  obtain ⟨hlegal, hmatches⟩ := h.owners.release hheld hloses hother
  refine ⟨hlegal, ?_, h.tasks, h.registered⟩
  rw [hopened]
  exact hmatches

/-! ### The server -/

variable {i : ι}

theorem construct (h : s.Kept own) (hl : s.Possible g (.server (.construct i fd))) :
    s.Enters g own (.server (.construct i fd)) := by
  have hstage : (s.server.links i).stage = .accepted := hl.1.1
  have hheld : s.Holds .setUp fd := hl.2 fd (List.mem_singleton_self fd)
  have htasks : (s.next g (.server (.construct i fd))).tasks = s.tasks.erase fd :=
    List.diff_cons .. |>.trans (List.diff_nil _)
  have hloses : ∀ r, (s.next g (.server (.construct i fd))).Holds .setUp r ↔
      s.Holds .setUp r ∧ r ≠ fd := by
    intro r
    show r ∈ (s.next g (.server (.construct i fd))).tasks ↔ r ∈ s.tasks ∧ r ≠ fd
    rw [htasks, h.tasks.mem_erase_iff, and_comm]
  have hlink : (s.next g (.server (.construct i fd))).server.links =
      Function.update s.server.links i { s.server.links i with
        stage := .constructed
        conn := TcpConnection.new (g.home i) fd 1024 false (g.added i)
        tied := g.isheartbeat } := rfl
  have hgains : ∀ r, (s.next g (.server (.construct i fd))).Holds (.connection i) r ↔
      s.Holds (.connection i) r ∨ r = fd := by
    intro r
    show ((s.next g (.server (.construct i fd))).server.links i).Holds r ↔
      (s.server.links i).Holds r ∨ r = fd
    rw [hlink, Function.update_self]
    simp [Link.Holds, hstage, TcpConnection.new, eq_comm]
  have hother : ∀ x, x ≠ .setUp → x ≠ .connection i → ∀ r,
      (s.next g (.server (.construct i fd))).Holds x r ↔ s.Holds x r := by
    intro x hx hx'
    cases x with
    | setUp => exact absurd rfl hx
    | connection j =>
        intro r
        have hne : j ≠ i := fun heq => hx' (heq ▸ rfl)
        show ((s.next g (.server (.construct i fd))).server.links j).Holds r ↔ _
        rw [hlink, Function.update_of_ne hne]
        exact Iff.rfl
    | acceptor | other => exact fun _ => Iff.rfl
  have hopened : (s.next g (.server (.construct i fd))).opened = s.opened := by
    show (s.opened ∪ [].toFinset) \ [].toFinset = _
    simp
  obtain ⟨hlegal, hmatches⟩ := h.owners.transfer hheld hloses hgains hother (by simp)
  refine ⟨hlegal, ?_, ?_, h.registered.next hl.1⟩
  · rw [hopened]
    exact hmatches
  · rw [htasks]
    exact h.tasks.erase fd

/-- A step that opens and closes nothing, and leaves every descriptor where it is -/
theorem frame (h : s.Kept own) {l : DescriptorStep ι} (hentries : s.entries l = [])
    (hopens : l.opens = []) (hcloses : s.closes l = [])
    (hholds : ∀ x r, (s.next g l).Holds x r ↔ s.Holds x r) (htasks : (s.next g l).tasks = s.tasks)
    (hregistered : (s.next g l).server.Registered) : s.Enters g own l := by
  have hopened : (s.next g l).opened = s.opened := by
    show (s.opened ∪ l.opens.toFinset) \ (s.closes l).toFinset = _
    simp [hopens, hcloses]
  have hmatches := h.owners.frame hholds
  unfold Enters
  rw [hentries]
  refine ⟨trivial, ?_, ?_, hregistered⟩
  · rw [hopened]
    exact hmatches
  · rw [htasks]
    exact h.tasks

theorem moves (h : s.Kept own) {l : ServerStep ι} (hl : s.server.Possible g l)
    (hmoves : TcpServer.Moves l) : s.Enters g own (.server l) := by
  have hnone : s.closes (.server l) = [] ∧ s.entries (.server l) = [] ∧ l.takes = [] := by
    cases l with
    | construct | work => exact hmoves.elim
    | _ => exact ⟨rfl, rfl, rfl⟩
  have htasks : (s.next g (.server l)).tasks = s.tasks := by
    show s.tasks.diff l.takes = _
    rw [hnone.2.2, List.diff_nil]
  refine h.frame hnone.2.1 rfl hnone.1 (fun x r => ?_) htasks (h.registered.next hl)
  cases x with
  | connection j => exact TcpServer.holds_next hl hmoves j r
  | setUp =>
      show r ∈ (s.next g (.server l)).tasks ↔ r ∈ s.tasks
      rw [htasks]
  | acceptor | other => exact Iff.rfl

/-- A function of the connection runs. -/
theorem work (h : s.Kept own) {l : Label} (hl : s.server.Possible g (.work i l)) :
    s.Enters g own (.server (.work i l)) := by
  have hmade : (s.server.links i).stage ≠ .accepted := by
    intro hstage
    have hopened := hl.1
    rw [hstage] at hopened
    cases hopened
  have hother : ∀ x, x ≠ .connection i → ∀ r,
      (s.next g (.server (.work i l))).Holds x r ↔ s.Holds x r := by
    intro x hx r
    cases x with
    | connection j =>
        have hne : j ≠ i := fun heq => hx (heq ▸ rfl)
        show ((s.server.setLink i ((s.server.links i).worked l)).links j).Holds r ↔ _
        rw [TcpServer.setLink_of_ne s.server hne]
        exact Iff.rfl
    | acceptor | setUp | other => exact Iff.rfl
  have hself : ∀ r, (s.next g (.server (.work i l))).Holds (.connection i) r ↔
      ((s.server.links i).conn.step l).socket.fd = r := by
    intro r
    show ((s.server.setLink i ((s.server.links i).worked l)).links i).Holds r ↔ _
    rw [TcpServer.setLink_self]
    exact and_iff_right hmade
  have hregistered := h.registered.next hl
  rcases (h.registered i).link.closes_step l with ⟨hnone, hsocket⟩ | ⟨fd, hfd, hclosed, hgone⟩
  · have hentries : s.entries (.server (.work i l)) = [] := by
      show ((s.server.links i).conn.closes l).map _ = _
      rw [hnone]
      rfl
    refine h.frame hentries rfl hnone (fun x r => ?_) (List.diff_nil _) hregistered
    by_cases hx : x = .connection i
    · rw [hx, hself, hsocket]
      exact (and_iff_right hmade).symm
    · exact hother x hx r
  · have hheld : s.Holds (.connection i) fd := ⟨hmade, hfd⟩
    have hloses : ∀ r, (s.next g (.server (.work i l))).Holds (.connection i) r ↔
        s.Holds (.connection i) r ∧ r ≠ fd := by
      intro r
      rw [hself, hgone]
      refine iff_of_false (by omega) ?_
      rintro ⟨⟨_, hr⟩, hne⟩
      exact hne (by omega)
    have hentries : s.entries (.server (.work i l)) = [.release (.connection i) fd] := by
      show ((s.server.links i).conn.closes l).map _ = _
      rw [hclosed]
      rfl
    have hopened : (s.next g (.server (.work i l))).opened = s.opened.erase fd := by
      show (s.opened ∪ [].toFinset) \ ((s.server.links i).conn.closes l).toFinset = _
      simp [hclosed, Finset.sdiff_singleton_eq_erase]
    obtain ⟨hlegal, hmatches⟩ := h.owners.release hheld hloses hother
    unfold Enters
    rw [hentries]
    refine ⟨hlegal, ?_, h.tasks, hregistered⟩
    rw [hopened]
    exact hmatches

/-- The object of a connection that nobody points to is disconnected already. -/
theorem destroy (h : s.Kept own) (hl : s.Possible g (.destroy i)) :
    s.closes (.destroy i) = [] ∧ s.Enters g own (.destroy i) := by
  have hs : (s.server.links i).conn.status = .kDisConnected := by
    by_contra hopen
    exact hl.2 ((h.registered i).alive hl.1 hopen)
  have hnone : s.closes (.destroy i) = [] := by
    show (s.server.links i).conn.socket.closes = []
    unfold Socket.closes
    rw [((h.registered i).link.unregistered hs).2]
    rfl
  have hentries : s.entries (.destroy i) = [] := by
    show (s.closes (.destroy i)).map _ = _
    rw [hnone]
    rfl
  have hholds : ∀ x r, (s.next g (.destroy i)).Holds x r ↔ s.Holds x r := by
    intro x r
    cases x with
    | acceptor | setUp | connection | other => exact Iff.rfl
  exact ⟨hnone, h.frame hentries rfl hnone hholds rfl h.registered⟩

/-- **Step lemma.** -/
theorem step (h : s.Kept own) {l : DescriptorStep ι} (hl : s.Possible g l) :
    s.Enters g own l := by
  cases l with
  | accept fd => exact h.accept hl
  | refuse =>
      obtain ⟨fd, hfd⟩ := Option.isSome_iff_exists.1 hl
      exact h.refuse hfd
  | submit =>
      obtain ⟨fd, hfd⟩ := Option.isSome_iff_exists.1 hl
      exact h.submit hfd
  | openOther fd => exact h.openOther hl
  | closeOther fd => exact h.closeOther hl
  | server l =>
      cases l with
      | construct i fd => exact h.construct hl
      | work i l => exact h.work hl.1
      | _ => exact h.moves hl.1 trivial
  | destroy i => exact (h.destroy hl).2

end Kept

/-- The ledger at the start -/
def ownedByOthers (others : Finset Nat) (fd : Nat) : Option (Holder ι) :=
  if fd ∈ others then some .other else none

theorem kept_new (others : Finset Nat) :
    (new others : Descriptors ι).Kept (ownedByOthers others) where
  owners := by
    constructor
    · intro fd
      show fd ∈ others ↔ (ownedByOthers others fd).isSome
      unfold ownedByOthers
      split
      · rename_i hfd
        exact iff_of_true hfd rfl
      · rename_i hfd
        exact iff_of_false hfd nofun
    · intro x fd
      unfold ownedByOthers
      cases x with
      | acceptor => simp [Holds, new]
      | setUp => simp [Holds, new]
      | connection i => simp [Holds, new, TcpServer.new, Link.Holds]
      | other => simp [Holds, new]
  tasks := List.nodup_nil
  registered := TcpServer.registered_new

/-- **Run lemma**: the entries of a run are legal, and the ledger is right at the end. -/
theorem kept_run (g : Settings ι) (others : Finset Nat) {ls : List (DescriptorStep ι)}
    (hlegal : (descriptors g).Legal (new others) ls) :
    (ledger (Holder ι) Nat).Legal (ownedByOthers others)
        ((descriptors g).collect entries (new others) ls) ∧
      ((descriptors g).run (new others) ls).Kept ((ledger (Holder ι) Nat).run
        (ownedByOthers others) ((descriptors g).collect entries (new others) ls)) :=
  (descriptors g).run_emits (p := fun s own => s.Kept own) (kept_new others)
    (fun _ _ _ h hl => h.step hl) ls hlegal

/-! ## Runs -/

omit [DecidableEq ι] in
theorem acquired_entries (s : Descriptors ι) (l : DescriptorStep ι) :
    (s.entries l).filterMap LedgerEntry.acquired? = l.opens := by
  cases l with
  | accept | openOther => rfl
  | submit => exact LedgerEntry.acquired_transfers ..
  | server l =>
      cases l with
      | construct => rfl
      | _ => exact LedgerEntry.acquired_releases ..
  | refuse | closeOther | destroy => exact LedgerEntry.acquired_releases ..

omit [DecidableEq ι] in
theorem released_entries (s : Descriptors ι) (l : DescriptorStep ι) :
    (s.entries l).filterMap LedgerEntry.released? = s.closes l := by
  cases l with
  | accept | openOther => rfl
  | submit => exact LedgerEntry.released_transfers ..
  | server l =>
      cases l with
      | construct => rfl
      | _ => exact LedgerEntry.released_releases ..
  | refuse | closeOther | destroy => exact LedgerEntry.released_releases ..

omit [DecidableEq ι] in
/-- Where a step closes anything, it enters nothing else. -/
theorem entries_of_closes (s : Descriptors ι) (l : DescriptorStep ι) :
    s.closes l = [] ∨ s.entries l = (s.closes l).map (LedgerEntry.release l.closer) := by
  cases l with
  | accept | openOther | submit => exact .inl rfl
  | server l =>
      cases l with
      | construct => exact .inl rfl
      | _ => exact .inr rfl
  | refuse | closeOther | destroy => exact .inr rfl

/-- **Every open descriptor has one holder.**  In every run of the acceptor, the sub-loops, the
base loop and the rest of the process: what is open is held, what is held is open, and nothing has
two holders; and every number has been closed as often as it has been opened, except that it is
open now. -/
theorem held_by_one (g : Settings ι) (others : Finset Nat) (ls : List (DescriptorStep ι))
    (hlegal : (descriptors g).Legal (new others) ls) :
    let s := (descriptors g).run (new others) ls
    (∀ fd, fd ∈ s.opened ↔ ∃ x, s.Holds x fd) ∧
    (∀ x y fd, s.Holds x fd → s.Holds y fd → x = y) ∧
    ∀ fd,
      ((descriptors g).collect (fun _ l => l.opens) (new others) ls).count fd +
          (if fd ∈ others then 1 else 0) =
        ((descriptors g).collect closes (new others) ls).count fd +
          if fd ∈ s.opened then 1 else 0 := by
  intro s
  obtain ⟨hentries, hkept⟩ := kept_run g others hlegal
  refine ⟨fun _ => hkept.owners.used_iff, fun _ _ _ => hkept.owners.unique, fun fd => ?_⟩
  have hstart : (new others : Descriptors ι).Kept _ := kept_new others
  have hcount := Ledger.acquired_eq_released hentries fd
  rw [(descriptors g).filterMap_collect, (descriptors g).filterMap_collect,
    hstart.owners.length_eq, hkept.owners.length_eq] at hcount
  simp only [acquired_entries, released_entries] at hcount
  exact hcount

/-- **A descriptor is closed by its holder.**  In every step of every run, each `close(2)` is for a
descriptor that is open, that the step's own side holds and nobody else; none is closed twice in
it.  When the object of a connection is destroyed there is nothing left to close. -/
theorem closed_by_holder (g : Settings ι) (others : Finset Nat) (ls : List (DescriptorStep ι))
    (hlegal : (descriptors g).Legal (new others) ls) :
    (descriptors g).Each (fun s l =>
      (s.closes l).Nodup ∧
      (∀ fd ∈ s.closes l, fd ∈ s.opened ∧ (∀ x, s.Holds x fd ↔ x = l.closer)) ∧
      ∀ i, l = .destroy i → s.closes l = []) (new others) ls := by
  intro n hn
  have hkept := (kept_run g others (Machine.Legal.take _ hlegal n)).2
  have hl := Machine.Legal.enabled_take _ hlegal hn
  have hdestroy : ∀ i, ls[n] = .destroy i →
      ((descriptors g).run (new others) (ls.take n)).closes ls[n] = [] := by
    intro i heq
    rw [heq] at hl ⊢
    exact (hkept.destroy hl).1
  rcases entries_of_closes ((descriptors g).run (new others) (ls.take n)) ls[n] with hnone | hall
  · rw [hnone]
    exact ⟨List.nodup_nil, nofun, fun _ _ => rfl⟩
  · have hlegal' := (hkept.step hl).1
    rw [hall] at hlegal'
    obtain ⟨hnodup, howned⟩ := Ledger.owned_of_releases hlegal'
    refine ⟨hnodup, fun fd hfd => ?_, hdestroy⟩
    have hheld := (hkept.owners.owns _ fd).2 (howned fd hfd)
    refine ⟨hkept.owners.used_iff.2 ⟨_, hheld⟩, fun x => ⟨fun hx => ?_, fun hx => ?_⟩⟩
    · exact hkept.owners.unique hx hheld
    · rw [hx]
      exact hheld

/-- **A connection uses its own descriptor.**  Whenever a function of a connection runs, in any
run: if the connection is not disconnected, its descriptor is open and nobody else holds it; if it
is, the function neither closes, writes nor registers anything, whoever has the number by then. -/
theorem calls_own_descriptor (g : Settings ι) (others : Finset Nat)
    (ls : List (DescriptorStep ι)) (i : ι) (l : Label)
    (hlegal : (descriptors g).Legal (new others) (ls ++ [.server (.work i l)])) :
    let s := (descriptors g).run (new others) ls
    let c := (s.server.links i).conn
    (c.status ≠ .kDisConnected →
      ∃ fd : Nat, c.socket.fd = fd ∧ fd ∈ s.opened ∧ ∀ x, s.Holds x fd ↔ x = .connection i) ∧
    (c.status = .kDisConnected →
      c.closes l = [] ∧ c.channel.owner = none ∧
        ∃ closeRequested, c.step l = { c with closeRequested := closeRequested }) := by
  intro s c
  have hkept := (kept_run g others (Machine.Legal.of_append _ hlegal)).2
  have hl : s.Possible g (.server (.work i l)) := Machine.Legal.enabled_at _ hlegal
  have hlink := (hkept.registered i).link
  constructor
  · intro hs
    have hmade : (s.server.links i).stage ≠ .accepted := by
      intro hstage
      have hopened := hl.1.1
      rw [hstage] at hopened
      cases hopened
    have hfd : c.socket.fd = c.socket.fd.toNat :=
      (Int.toNat_of_nonneg ((hlink.isOpen hs).sound.connected hs).2).symm
    have hheld : s.Holds (.connection i) c.socket.fd.toNat := ⟨hmade, hfd⟩
    refine ⟨_, hfd, hkept.owners.used_iff.2 ⟨_, hheld⟩, fun x => ⟨fun hx => ?_, fun hx => ?_⟩⟩
    · exact hkept.owners.unique hx hheld
    · rw [hx]
      exact hheld
  · exact fun hs => hlink.silent hs l

end Descriptors

/-! ## A number that is used again -/

/-- A connection is accepted, served and closed, and the next one gets its number. -/
def acceptedTwice : List (DescriptorStep Bool) :=
  [.accept 5, .submit, .server (.construct true 5), .server (.submitInsert true), .server .swap,
    .server .run, .server (.resume true), .server (.setCloseCallback true),
    .server (.work true ⟨.activate, ⟨true, true⟩⟩), .server (.finishSetUp true),
    .server (.work true ⟨.close, ⟨true, true⟩⟩), .accept 5]

/-- The acceptor has the number now, and the connection that had it does not. -/
theorem held_by_one_reused :
    let g : Settings Bool := ⟨fun _ => 0, false, fun _ => true⟩
    let s := (descriptors g).run (.new {0, 1, 2}) acceptedTwice
    ∀ x, s.Holds x 5 → x = .acceptor := by
  intro g s x hx
  exact (Descriptors.held_by_one g {0, 1, 2} acceptedTwice (by decide)).2.1 x .acceptor 5 hx rfl

/-- `Close` closes what the connection alone holds. -/
theorem closed_by_holder_close :
    let g : Settings Bool := ⟨fun _ => 0, false, fun _ => true⟩
    let s := (descriptors g).run (.new {0, 1, 2}) (acceptedTwice.take 10)
    ∀ x, s.Holds x 5 ↔ x = .connection true := by
  intro g s
  have hstep := Descriptors.closed_by_holder g {0, 1, 2} acceptedTwice (by decide) 10 (by decide)
  exact (hstep.2.1 5 (by decide)).2

/-- A `close` that comes late does not touch the new connection. -/
theorem calls_own_descriptor_late :
    let g : Settings Bool := ⟨fun _ => 0, false, fun _ => true⟩
    let s := (descriptors g).run (.new {0, 1, 2}) acceptedTwice
    5 ∈ s.opened ∧ (s.server.links true).conn.closes ⟨.closeInThread, ⟨true, true⟩⟩ = [] := by
  intro g s
  have hcall := Descriptors.calls_own_descriptor g {0, 1, 2} acceptedTwice true
    ⟨.closeInThread, ⟨true, true⟩⟩ (by decide)
  exact ⟨by decide, (hcall.2 (by decide)).1⟩

end Adachi.Network
