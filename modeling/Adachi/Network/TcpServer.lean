import Adachi.Lib.Mailbox
import Adachi.Network.Dispatch
import Mathlib.Data.Finset.Basic

/-!
# `adachi::network::TcpServer`: connections and their owners

The set-up of accepted connections on the sub-loops, the tasks that insert them into
`tcpst_` and erase them from it on the base loop, and the dispatch of events
(`src/tcpserver.cpp`, with the parts of `src/eventloop.cpp` and `src/channel.cpp`
that run on a sub-loop).  A step is what one thread does between two points where
another thread can come in between.

What a connection does itself is a step of `TcpConnection`, so that `Read`, the
message handler and the release of a heartbeat are calls of `Write` and `Close` here.
No function runs on an object that has been destroyed: what such a call would do is
undefined, and the model has no step for it.

`Alive` says that at least one `shared_ptr` to the connection exists.  The owners are
`tcpst_`, the tasks that capture the pointer, `linkptr` in the set-up task, `self` in
the function that closes the connection, and the guard of `Channel::Handle`.
References that user code keeps are not counted; they only add to these.
-/

namespace Adachi.Network

open Adachi.Io

/-! ## States -/

/-- How far the set-up task of a connection is: submitted to its sub-loop, the object
made, waiting in `SubmitAndWait` for the insertion, back from it, the close callback
set, finished. -/
inductive Stage where
  | accepted
  | constructed
  | inserting
  | inserted
  | ready
  | serving
  deriving DecidableEq, Repr

/-- How far the close callback of a connection is: not called, before its `Submit` of
the erase task, after it, returned to a caller that no longer holds `self`. -/
inductive Closing where
  | no
  | calling
  | submitted
  | returned
  deriving DecidableEq, Repr

/-- A task of the base loop, which captures a `shared_ptr` to the connection `i`. -/
inductive Task (ι : Type) where
  | insert (i : ι)
  | erase (i : ι)
  deriving DecidableEq, Repr

/-- The connection that a task captures. -/
def Task.conn {ι : Type} : Task ι → ι
  | .insert i => i
  | .erase i => i

theorem Task.insert_ne_erase {ι : Type} (i j : ι) : Task.insert i ≠ Task.erase j := by
  intro h
  cases h

/-- `inserted` is the flag `done` of the connection's `SubmitAndWait`, and `tied` that of
its channel. -/
structure Link where
  stage : Stage
  inserted : Bool
  conn : TcpConnection
  tied : Bool
  closing : Closing
  deriving DecidableEq, Repr

/-- After a step of the connection: `RemoveFromLoop` unties the channel, and the close
callback may have been called. -/
def Link.worked (link : Link) (l : Label) : Link :=
  { link with
    conn := link.conn.step l
    tied := link.tied && (link.conn.step l).channel.owner.isSome
    closing :=
      if link.conn.effects.count .closeCallback <
          (link.conn.step l).effects.count .closeCallback
      then .calling else link.closing }

/-- A sub-loop: the connection it is setting up, the connections of `active_list` still to
be handled, and the one in `Handle` with whether its guard is held. -/
structure SubLoop (ι : Type) where
  setUp : Option ι
  active : List ι
  handling : Option (ι × Bool)
  deriving DecidableEq, Repr

structure TcpServer (ι : Type) where
  base : Mailbox (Task ι)
  tcpst : Finset ι
  links : ι → Link
  loops : LoopId → SubLoop ι

/-- `home` is the choice of `GetOneThread`, and `isheartbeat` says that the wheel has
slots.  `added` says for which connections `EPOLL_CTL_ADD` succeeds. -/
structure Settings (ι : Type) where
  home : ι → LoopId
  isheartbeat : Bool
  added : ι → Bool

inductive ServerStep (ι : Type) where
  | construct (i : ι) (fd : Nat)
  | submitInsert (i : ι)
  | resume (i : ι)
  | setCloseCallback (i : ι)
  | finishSetUp (i : ι)
  | work (i : ι) (l : Label)
  | submitErase (i : ι)
  | closeDone (i : ι)
  | swap
  | run
  | release
  | poll (k : LoopId) (active : List ι)
  | handle (k : LoopId)
  | handled (k : LoopId)
  deriving DecidableEq

namespace Stage

/-- The set-up task holds `linkptr`. -/
def holdsLink : Stage → Bool
  | .accepted => false
  | .serving => false
  | _ => true

/-- The insert task has been submitted. -/
def submitted : Stage → Bool
  | .accepted => false
  | .constructed => false
  | _ => true

/-- `SubmitAndWait` has returned. -/
def passed : Stage → Bool
  | .inserted => true
  | .ready => true
  | .serving => true
  | _ => false

/-- The close callback is set. -/
def opened : Stage → Bool
  | .ready => true
  | .serving => true
  | _ => false

end Stage

namespace Closing

/-- The function that closes the connection is under way and holds `self`. -/
def holdsSelf : Closing → Bool
  | .calling => true
  | .submitted => true
  | _ => false

/-- The erase task has been submitted. -/
def erased : Closing → Bool
  | .submitted => true
  | .returned => true
  | _ => false

end Closing

namespace TcpServer

variable {ι : Type}

def new : TcpServer ι where
  base := .empty
  tcpst := ∅
  links := fun _ => ⟨.accepted, false, TcpConnection.new 0 0 0 false true, false, .no⟩
  loops := fun _ => ⟨none, [], none⟩

/-! ## The shared pointers -/

/-- `Handle` holds the guard of the connection. -/
def Guarded (g : Settings ι) (s : TcpServer ι) (i : ι) : Prop :=
  (s.loops (g.home i)).handling = some (i, true)

/-- At least one `shared_ptr` to the connection exists. -/
def Alive (g : Settings ι) (s : TcpServer ι) (i : ι) : Prop :=
  i ∈ s.tcpst ∨ (∃ task ∈ s.base.kept, task.conn = i) ∨
    (s.links i).stage.holdsLink = true ∨ (s.links i).closing.holdsSelf = true ∨
    s.Guarded g i

/-- From the poll of the sub-loop `k` that lists the connection until its `Handle`
returns. -/
def Listed (s : TcpServer ι) (k : LoopId) (i : ι) : Prop :=
  i ∈ (s.loops k).active ∨ ∃ guard, (s.loops k).handling = some (i, guard)

/-- The connection is listed, and `Handle` holds no guard of it. -/
def Exposed (g : Settings ι) (s : TcpServer ι) (i : ι) : Prop :=
  i ∈ (s.loops (g.home i)).active ∨ (s.loops (g.home i)).handling = some (i, false)

variable [DecidableEq ι]

instance (g : Settings ι) (s : TcpServer ι) (i : ι) : Decidable (s.Guarded g i) :=
  inferInstanceAs (Decidable ((s.loops (g.home i)).handling = some (i, true)))

instance (g : Settings ι) (s : TcpServer ι) (i : ι) : Decidable (s.Alive g i) :=
  inferInstanceAs (Decidable (i ∈ s.tcpst ∨ (∃ task ∈ s.base.kept, task.conn = i) ∨
    (s.links i).stage.holdsLink = true ∨ (s.links i).closing.holdsSelf = true ∨
    s.Guarded g i))

instance (g : Settings ι) (s : TcpServer ι) (i : ι) : Decidable (s.Exposed g i) :=
  inferInstanceAs (Decidable (i ∈ (s.loops (g.home i)).active ∨
    (s.loops (g.home i)).handling = some (i, false)))

/-! ## Steps -/

def setLink (s : TcpServer ι) (i : ι) (link : Link) : TcpServer ι :=
  { s with links := Function.update s.links i link }

def setLoop (s : TcpServer ι) (k : LoopId) (loop : SubLoop ι) : TcpServer ι :=
  { s with loops := Function.update s.loops k loop }

def push (s : TcpServer ι) (task : Task ι) : TcpServer ι :=
  { s with base := s.base.push task }

/-- `make_shared<TcpConnection>(io_loop, fd)`, and `SaveLifeMechanism`, which ties the
channel, when the heartbeat is on. -/
def construct (g : Settings ι) (s : TcpServer ι) (i : ι) (fd : Nat) : TcpServer ι :=
  (s.setLink i
    { s.links i with
      stage := .constructed
      conn := TcpConnection.new (g.home i) fd 1024 false (g.added i)
      tied := g.isheartbeat }).setLoop (g.home i)
    { s.loops (g.home i) with setUp := some i }

/-- A function of the connection runs on its sub-loop. -/
def work (s : TcpServer ι) (i : ι) (l : Label) : TcpServer ι :=
  s.setLink i ((s.links i).worked l)

/-- The next task of the batch of the base loop.  The task of a `SubmitAndWait` sets the
flag. -/
def run (s : TcpServer ι) : TcpServer ι :=
  match s.base.batch with
  | [] => s
  | .insert i :: _ =>
      { s.setLink i { s.links i with inserted := true } with
        base := s.base.runNext
        tcpst := insert i s.tcpst }
  | .erase i :: _ => { s with base := s.base.runNext, tcpst := s.tcpst.erase i }

/-- `Handle` of the next channel of `active_list`, up to its first callback. -/
def handle (s : TcpServer ι) (k : LoopId) : TcpServer ι :=
  match (s.loops k).active with
  | [] => s
  | i :: rest =>
      s.setLoop k { s.loops k with active := rest, handling := some (i, (s.links i).tied) }

def next (g : Settings ι) (s : TcpServer ι) : ServerStep ι → TcpServer ι
  | .construct i fd => s.construct g i fd
  | .submitInsert i =>
      (s.push (.insert i)).setLink i { s.links i with stage := .inserting }
  | .resume i => s.setLink i { s.links i with stage := .inserted }
  | .setCloseCallback i =>
      s.setLink i
        { s.links i with
          stage := .ready
          conn := { (s.links i).conn with closeCallback := true } }
  | .finishSetUp i =>
      (s.setLink i { s.links i with stage := .serving }).setLoop (g.home i)
        { s.loops (g.home i) with setUp := none }
  | .work i l => s.work i l
  | .submitErase i =>
      (s.push (.erase i)).setLink i { s.links i with closing := .submitted }
  | .closeDone i => s.setLink i { s.links i with closing := .returned }
  | .swap => { s with base := s.base.swap }
  | .run => s.run
  | .release => { s with base := s.base.release }
  | .poll k active => s.setLoop k { s.loops k with active := active }
  | .handle k => s.handle k
  | .handled k => s.setLoop k { s.loops k with handling := none }

/-- The sub-loop is between two tasks and has handled everything it has polled. -/
def Idle (s : TcpServer ι) (k : LoopId) : Prop := s.loops k = ⟨none, [], none⟩

/-- When a step can be taken.  A sub-loop waits in the `SubmitAndWait` of a set-up, and does
nothing else.  The kernel reports only open descriptors. -/
def Possible (g : Settings ι) (s : TcpServer ι) : ServerStep ι → Prop
  | .construct i _ => (s.links i).stage = .accepted ∧ s.Idle (g.home i)
  | .submitInsert i => (s.links i).stage = .constructed
  | .resume i => (s.links i).stage = .inserting ∧ (s.links i).inserted = true
  | .setCloseCallback i => (s.links i).stage = .inserted
  | .finishSetUp i =>
      (s.links i).stage = .ready ∧ (s.links i).closing.holdsSelf = false
  | .work i l =>
      (s.links i).stage.opened = true ∧ s.Alive g i ∧
        (l.op ≠ .requestClose → ∀ j ∈ (s.loops (g.home i)).setUp,
          (s.links j).stage.opened = true)
  | .submitErase i => (s.links i).closing = .calling
  | .closeDone i => (s.links i).closing = .submitted
  | .swap => s.base.batch = [] ∧ s.base.ran = []
  | .run => s.base.batch ≠ []
  | .release => s.base.batch = []
  | .poll k active =>
      s.Idle k ∧ ∀ i ∈ active, g.home i = k ∧ g.added i = true ∧
        (s.links i).stage = .serving ∧ 0 ≤ (s.links i).conn.socket.fd
  | .handle k =>
      (s.loops k).handling = none ∧ ∃ i ∈ (s.loops k).active.head?, s.Alive g i
  | .handled k =>
      ∃ i ∈ (s.loops k).handling.map Prod.fst, (s.links i).closing.holdsSelf = false

instance (s : TcpServer ι) (k : LoopId) : Decidable (s.Idle k) :=
  inferInstanceAs (Decidable (s.loops k = ⟨none, [], none⟩))

instance (g : Settings ι) (s : TcpServer ι) :
    (l : ServerStep ι) → Decidable (s.Possible g l)
  | .construct i _ =>
      inferInstanceAs (Decidable ((s.links i).stage = .accepted ∧ s.Idle (g.home i)))
  | .submitInsert i => inferInstanceAs (Decidable ((s.links i).stage = .constructed))
  | .resume i => inferInstanceAs
      (Decidable ((s.links i).stage = .inserting ∧ (s.links i).inserted = true))
  | .setCloseCallback i => inferInstanceAs (Decidable ((s.links i).stage = .inserted))
  | .finishSetUp i => inferInstanceAs
      (Decidable ((s.links i).stage = .ready ∧ (s.links i).closing.holdsSelf = false))
  | .work i l => inferInstanceAs
      (Decidable ((s.links i).stage.opened = true ∧ s.Alive g i ∧
        (l.op ≠ .requestClose → ∀ j ∈ (s.loops (g.home i)).setUp,
          (s.links j).stage.opened = true)))
  | .submitErase i => inferInstanceAs (Decidable ((s.links i).closing = .calling))
  | .closeDone i => inferInstanceAs (Decidable ((s.links i).closing = .submitted))
  | .swap => inferInstanceAs (Decidable (s.base.batch = [] ∧ s.base.ran = []))
  | .run => inferInstanceAs (Decidable (s.base.batch ≠ []))
  | .release => inferInstanceAs (Decidable (s.base.batch = []))
  | .poll k active => inferInstanceAs
      (Decidable (s.Idle k ∧ ∀ i ∈ active, g.home i = k ∧ g.added i = true ∧
        (s.links i).stage = .serving ∧ 0 ≤ (s.links i).conn.socket.fd))
  | .handle k => inferInstanceAs
      (Decidable ((s.loops k).handling = none ∧
        ∃ i ∈ (s.loops k).active.head?, s.Alive g i))
  | .handled k => inferInstanceAs
      (Decidable (∃ i ∈ (s.loops k).handling.map Prod.fst,
        (s.links i).closing.holdsSelf = false))

@[simp] theorem setLink_self (s : TcpServer ι) (i : ι) (link : Link) :
    (s.setLink i link).links i = link := Function.update_self ..

theorem setLink_of_ne (s : TcpServer ι) {i j : ι} (hne : j ≠ i) (link : Link) :
    (s.setLink i link).links j = s.links j := Function.update_of_ne hne ..

end TcpServer

def server {ι : Type} [DecidableEq ι] (g : Settings ι) :
    Machine (TcpServer ι) (ServerStep ι) where
  next := TcpServer.next g
  enabled := TcpServer.Possible g

instance {ι : Type} [DecidableEq ι] (g : Settings ι) (s : TcpServer ι) (l : ServerStep ι) :
    Decidable ((server g).enabled s l) :=
  inferInstanceAs (Decidable (s.Possible g l))

end Adachi.Network
