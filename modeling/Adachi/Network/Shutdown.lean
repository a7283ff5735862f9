import Adachi.Network.Registry

/-!
# Shutting a server down

`TcpServer`, its pool and every channel keep raw pointers to loops that live on the
stacks of their threads.  This machine adds the lives of the loops to the machine of
the server, with the thread that calls `Start`, `Close` and the destructor
(`src/tcpserver.cpp`, `src/eventloopthread.cpp`, `src/eventloopthreadpool.cpp`), and
records for every call on a loop whether the loop was still there.

`Close` stops the base loop first and waits until it is gone, and stops the sub-loops
only then.  A second `Close` therefore uses a loop that has ended, and so does every
connection that is still open: its close callback submits to the base loop, whether the
peer closes it or the destructor of its loop's timer does, and if nobody closes it,
`~TcpConnection` deletes its channel from a sub-loop that has ended.

## Main results

* `uses_live`: there is no other way.
-/

namespace Adachi.Network

open Adachi.Io

/-! ## States -/

/-- The life of a loop: not there yet, constructed but not yet in `Loop`, in `Loop` with
`quit_` set or not, out of `Loop` but not yet destroyed, destroyed. -/
inductive Life where
  | absent
  | constructed
  | looping (quit : Bool)
  | leaving
  | ended
  deriving DecidableEq, Repr

/-- The object exists. -/
def Life.isLive : Life → Bool
  | .constructed => true
  | .looping _ => true
  | .leaving => true
  | _ => false

def Life.isLooping : Life → Bool
  | .looping _ => true
  | _ => false

/-- The loop is there and will stay until it is stopped. -/
def Life.isUnstopped : Life → Bool
  | .constructed => true
  | .looping quit => !quit
  | _ => false

/-- `quit_.store(true)`, which `Loop` undoes when it starts. -/
def Life.stop : Life → Life
  | .looping _ => .looping true
  | life => life

theorem Life.isLive_of_isLooping {life : Life} (h : life.isLooping = true) :
    life.isLive = true := by
  cases life with
  | looping quit => rfl
  | absent | constructed | leaving | ended => cases h

theorem Life.stop_ne {life other : Life} (h : life ≠ other)
    (hother : .looping true ≠ other) : life.stop ≠ other := by
  cases life with
  | looping quit => exact hother
  | absent | constructed | leaving | ended => exact h

theorem Life.isLive_of_isUnstopped {life : Life} (h : life.isUnstopped = true) :
    life.isLive = true := by
  cases life with
  | constructed | looping quit => rfl
  | absent | leaving | ended => cases h

inductive LoopCall where
  | stopLoop
  | submit
  | deleteChannel
  deriving DecidableEq, Repr

/-- The base loop is `none`, a sub-loop `some k`. -/
abbrev AnyLoop := Option LoopId

/-- A call on a loop, and whether the loop existed. -/
structure LoopUse where
  call : LoopCall
  loop : AnyLoop
  live : Bool
  deriving DecidableEq, Repr

/-- What the thread that owns the server is doing: nothing; in `Start`, with the old
threads still to be retired, the new ones still to be launched, and all new ones; in
`Close`, which the destructor calls or not, at the join of the acceptor thread, or with
the sub-loops still to be stopped or joined; destroying `tcpst_`, with the entries still
to be destroyed. -/
inductive Owner (ι : Type) where
  | idle
  | starting (old rest new : List LoopId)
  | joinBase (destructor : Bool)
  | stopPool (destructor : Bool) (rest : List LoopId)
  | joinPool (destructor : Bool) (rest : List LoopId)
  | destroying (rest : Finset ι)
  deriving DecidableEq

/-- The loop whose thread the owner joins. -/
def Owner.joins {ι : Type} : Owner ι → Option AnyLoop
  | .starting (k :: _) _ _ => some (some k)
  | .joinBase _ => some none
  | .joinPool _ (k :: _) => some (some k)
  | _ => none

/-- The entries of `tcpst_` still to be destroyed. -/
def Owner.toDestroy {ι : Type} : Owner ι → Finset ι
  | .destroying rest => rest
  | _ => ∅

/-- `pool` is `oper_threads_`; `closed` says that `Close` has been called. -/
structure Lifetimes (ι : Type) where
  server : TcpServer ι
  lives : AnyLoop → Life
  pool : List LoopId
  owner : Owner ι
  closed : Bool
  uses : List LoopUse

inductive LifetimeStep (ι : Type) where
  | server (l : ServerStep ι)
  | start (new : List LoopId)
  | retire
  | joinOld
  | launch
  | started
  | close (destructor : Bool)
  | joinBase
  | stopPool
  | joinPool
  | destroy (i : ι)
  | enter (loop : AnyLoop)
  | leave (loop : AnyLoop)
  | finish (loop : AnyLoop)
  deriving DecidableEq

namespace Lifetimes

variable {ι : Type} [DecidableEq ι]

/-- After `TcpServer(listenaddr, ..)`, which starts the acceptor thread. -/
def new : Lifetimes ι where
  server := .new
  lives := Function.update (fun _ => .absent) none .constructed
  pool := []
  owner := .idle
  closed := false
  uses := []

/-! ## Steps -/

def setLife (s : Lifetimes ι) (loop : AnyLoop) (life : Life) : Lifetimes ι :=
  { s with lives := Function.update s.lives loop life }

/-- A call on a loop. -/
def use (s : Lifetimes ι) (call : LoopCall) (loop : AnyLoop) : Lifetimes ι :=
  { s with uses := s.uses ++ [⟨call, loop, (s.lives loop).isLive⟩] }

/-- `StopLoop` -/
def stopLoop (s : Lifetimes ι) (loop : AnyLoop) : Lifetimes ι :=
  (s.use .stopLoop loop).setLife loop (s.lives loop).stop

/-- The calls on loops in a step of the server: the close callback submits the erase task,
and `RemoveFromLoop` deletes the channel from its loop.  Wherever else a connection is
destroyed it is disconnected, and `~TcpConnection` calls nothing (`ConnOk.alive`). -/
def serverUses (g : Settings ι) (s : Lifetimes ι) : ServerStep ι → Lifetimes ι
  | .submitErase _ => s.use .submit none
  | .work i l =>
      if (s.server.links i).conn.channel.owner.isSome &&
          ((s.server.links i).conn.step l).channel.owner.isNone then
        s.use .deleteChannel (some (g.home i))
      else s
  | _ => s

/-- `~TcpConnection` of an entry of `tcpst_`, which is its last owner. -/
def destroy (s : Lifetimes ι) (i : ι) : Lifetimes ι :=
  let s :=
    match (s.server.links i).conn.channel.owner with
    | none => s
    | some k => s.use .deleteChannel (some k)
  match s.owner with
  | .destroying rest => { s with owner := .destroying (rest.erase i) }
  | _ => s

/-- `Start` and `Close`, step by step.  `~EventLoopThread` stops the loop of an old thread
(`retire`) and joins the thread; `EventLoopThread::Start` waits until the new loop is
constructed. -/
def ownerStep (s : Lifetimes ι) : LifetimeStep ι → Lifetimes ι
  | .start new => { s with owner := .starting s.pool new new }
  | .retire =>
      match s.owner with
      | .starting (k :: _) _ _ => s.setLife (some k) (s.lives (some k)).stop
      | _ => s
  | .joinOld =>
      match s.owner with
      | .starting (_ :: old) rest new => { s with owner := .starting old rest new }
      | _ => s
  | .launch =>
      match s.owner with
      | .starting old (k :: rest) new =>
          { s.setLife (some k) .constructed with owner := .starting old rest new }
      | _ => s
  | .started =>
      match s.owner with
      | .starting [] [] new => { s with owner := .idle, pool := new }
      | _ => s
  | .close destructor =>
      { s.stopLoop none with owner := .joinBase destructor, closed := true }
  | .joinBase =>
      match s.owner with
      | .joinBase destructor => { s with owner := .stopPool destructor s.pool }
      | _ => s
  | .stopPool =>
      match s.owner with
      | .stopPool destructor (k :: rest) =>
          { s.stopLoop (some k) with owner := .stopPool destructor rest }
      | .stopPool destructor [] => { s with owner := .joinPool destructor s.pool }
      | _ => s
  | .joinPool =>
      match s.owner with
      | .joinPool destructor (_ :: rest) => { s with owner := .joinPool destructor rest }
      | .joinPool true [] => { s with owner := .destroying s.server.tcpst }
      | .joinPool false [] => { s with owner := .idle }
      | _ => s
  | _ => s

def next (g : Settings ι) (s : Lifetimes ι) : LifetimeStep ι → Lifetimes ι
  | .server l => { s.serverUses g l with server := s.server.next g l }
  | .destroy i => s.destroy i
  | .enter loop => s.setLife loop (.looping false)
  | .leave loop => s.setLife loop .leaving
  | .finish loop => s.setLife loop .ended
  | l => s.ownerStep l

omit [DecidableEq ι] in
@[simp] theorem lives_setLife_self (s : Lifetimes ι) (loop : AnyLoop) (life : Life) :
    (s.setLife loop life).lives loop = life := Function.update_self ..

omit [DecidableEq ι] in
theorem lives_setLife_of_ne (s : Lifetimes ι) {loop other : AnyLoop} (hne : other ≠ loop)
    (life : Life) : (s.setLife loop life).lives other = s.lives other :=
  Function.update_of_ne hne ..

omit [DecidableEq ι] in
/-- The loop of a thread of the pool is not the base loop. -/
theorem lives_setLife_some (s : Lifetimes ι) (k : LoopId) (life : Life) :
    (s.setLife (some k) life).lives none = s.lives none :=
  s.lives_setLife_of_ne (Option.some_ne_none k).symm life

omit [DecidableEq ι] in
theorem lives_setLife_some_of_ne (s : Lifetimes ι) {k m : LoopId} (hne : m ≠ k)
    (life : Life) : (s.setLife (some k) life).lives (some m) = s.lives (some m) :=
  s.lives_setLife_of_ne ((Option.some_injective _).ne hne) life

omit [DecidableEq ι] in
/-- A step of the server has no other effect here. -/
theorem serverUses_eq (g : Settings ι) (s : Lifetimes ι) (l : ServerStep ι) :
    s.serverUses g l = { s with uses := (s.serverUses g l).uses } := by
  cases l with
  | work i l =>
      unfold serverUses
      dsimp only
      split
      · rfl
      · rfl
  | submitErase | construct | submitInsert | resume | setCloseCallback | finishSetUp
  | closeDone | swap | run | release | poll | handle | handled => rfl

/-! ## When a step can be taken -/

/-- The thread that takes a step of the server is there.  The timer of a loop that is being
destroyed releases its heartbeats, and each closes its connection. -/
def HasThread (g : Settings ι) (s : Lifetimes ι) : ServerStep ι → Prop
  | .construct i _ => (s.lives (some (g.home i))).isLooping = true
  | .submitInsert i => (s.lives (some (g.home i))).isLooping = true
  | .resume i => (s.lives (some (g.home i))).isLooping = true
  | .setCloseCallback i => (s.lives (some (g.home i))).isLooping = true
  | .finishSetUp i => (s.lives (some (g.home i))).isLooping = true
  | .work i l =>
      l.op = .requestClose ∨ (s.lives (some (g.home i))).isLooping = true ∨
        (s.lives (some (g.home i)) = .leaving ∧ g.isheartbeat = true ∧ l.op = .close)
  | .submitErase i => (s.lives (some (g.home i))).isLive = true
  | .closeDone i => (s.lives (some (g.home i))).isLive = true
  | .swap => (s.lives none).isLooping = true
  | .run => (s.lives none).isLooping = true
  | .release => (s.lives none).isLooping = true
  | .poll k _ => (s.lives (some k)).isLooping = true
  | .handle k => (s.lives (some k)).isLooping = true
  | .handled k => (s.lives (some k)).isLooping = true

/-- The loop thread is at its check of `quit_`. -/
def AtCheck (s : Lifetimes ι) : AnyLoop → Prop
  | none => s.server.base.batch = [] ∧ s.server.base.ran = []
  | some k => s.server.Idle k

/-- `~EventLoop` has destroyed the timer: with the heartbeat on, every connection of the loop
has been asked to close. -/
def WheelReleased (g : Settings ι) (s : Lifetimes ι) : AnyLoop → Prop
  | none => True
  | some k => g.isheartbeat = true →
      ∀ i ∈ s.server.tcpst, g.home i = k → (s.server.links i).conn.closeRequested = true

/-- `Start` and `Close` hold `mtx_`; new threads are new.  A step of the owner that is not
its next one changes nothing. -/
def Possible (g : Settings ι) (s : Lifetimes ι) : LifetimeStep ι → Prop
  | .server l => s.server.Possible g l ∧ s.HasThread g l
  | .start new => s.owner = .idle ∧ new.Nodup ∧ ∀ k ∈ new, s.lives (some k) = .absent
  | .joinOld => ∀ loop ∈ s.owner.joins, s.lives loop = .ended
  | .close _ => s.owner = .idle
  | .joinBase => ∀ loop ∈ s.owner.joins, s.lives loop = .ended
  | .joinPool => ∀ loop ∈ s.owner.joins, s.lives loop = .ended
  | .destroy i => i ∈ s.owner.toDestroy
  | .enter loop => s.lives loop = .constructed
  | .leave loop => (s.lives loop).isLooping = true ∧ s.AtCheck loop
  | .finish loop => s.lives loop = .leaving ∧ s.WheelReleased g loop
  | _ => True

instance (g : Settings ι) (s : Lifetimes ι) :
    (l : ServerStep ι) → Decidable (s.HasThread g l)
  | .construct i _ | .submitInsert i | .resume i | .setCloseCallback i | .finishSetUp i =>
      inferInstanceAs (Decidable ((s.lives (some (g.home i))).isLooping = true))
  | .work i l => inferInstanceAs
      (Decidable (l.op = .requestClose ∨ (s.lives (some (g.home i))).isLooping = true ∨
        (s.lives (some (g.home i)) = .leaving ∧ g.isheartbeat = true ∧ l.op = .close)))
  | .submitErase i | .closeDone i =>
      inferInstanceAs (Decidable ((s.lives (some (g.home i))).isLive = true))
  | .swap | .run | .release =>
      inferInstanceAs (Decidable ((s.lives none).isLooping = true))
  | .poll k _ | .handle k | .handled k =>
      inferInstanceAs (Decidable ((s.lives (some k)).isLooping = true))

instance (s : Lifetimes ι) : (loop : AnyLoop) → Decidable (s.AtCheck loop)
  | none =>
      inferInstanceAs (Decidable (s.server.base.batch = [] ∧ s.server.base.ran = []))
  | some k => inferInstanceAs (Decidable (s.server.Idle k))

instance (g : Settings ι) (s : Lifetimes ι) :
    (loop : AnyLoop) → Decidable (s.WheelReleased g loop)
  | none => inferInstanceAs (Decidable True)
  | some k => inferInstanceAs (Decidable (g.isheartbeat = true →
      ∀ i ∈ s.server.tcpst, g.home i = k → (s.server.links i).conn.closeRequested = true))

instance (g : Settings ι) (s : Lifetimes ι) :
    (l : LifetimeStep ι) → Decidable (s.Possible g l)
  | .server l => inferInstanceAs (Decidable (s.server.Possible g l ∧ s.HasThread g l))
  | .start new => inferInstanceAs
      (Decidable (s.owner = .idle ∧ new.Nodup ∧ ∀ k ∈ new, s.lives (some k) = .absent))
  | .joinOld | .joinBase | .joinPool =>
      inferInstanceAs (Decidable (∀ loop ∈ s.owner.joins, s.lives loop = .ended))
  | .close _ => inferInstanceAs (Decidable (s.owner = .idle))
  | .destroy i => inferInstanceAs (Decidable (i ∈ s.owner.toDestroy))
  | .enter loop => inferInstanceAs (Decidable (s.lives loop = .constructed))
  | .leave loop =>
      inferInstanceAs (Decidable ((s.lives loop).isLooping = true ∧ s.AtCheck loop))
  | .finish loop =>
      inferInstanceAs (Decidable (s.lives loop = .leaving ∧ s.WheelReleased g loop))
  | .retire | .launch | .started | .stopPool => inferInstanceAs (Decidable True)

end Lifetimes

def lifetimes {ι : Type} [DecidableEq ι] (g : Settings ι) :
    Machine (Lifetimes ι) (LifetimeStep ι) where
  next := Lifetimes.next g
  enabled := Lifetimes.Possible g

instance {ι : Type} [DecidableEq ι] (g : Settings ι) (s : Lifetimes ι)
    (l : LifetimeStep ι) : Decidable ((lifetimes g).enabled s l) :=
  inferInstanceAs (Decidable (s.Possible g l))

/-! ## A server with nothing left to erase -/

namespace TcpServer

variable {ι : Type} [DecidableEq ι] {g : Settings ι} {s : TcpServer ι} {i : ι}

/-- Every inserted connection is disconnected, and its close callback has submitted the
erase task. -/
def Drained (s : TcpServer ι) : Prop :=
  ∀ i, (s.links i).inserted = true →
    (s.links i).conn.status = .kDisConnected ∧ (s.links i).closing ≠ .calling

/-- It is enough to look at `tcpst_`. -/
theorem Registered.drained (h : s.Registered)
    (htcpst : ∀ i ∈ s.tcpst, (s.links i).conn.status = .kDisConnected ∧
      (s.links i).closing ≠ .calling) : s.Drained := by
  intro i hinserted
  by_cases hmem : i ∈ s.tcpst
  · exact htcpst i hmem
  · have hdone : .erase i ∈ s.base.done := by
      by_contra hnone
      exact hmem ((h i).tasks.tcpst.2 ⟨(h i).tasks.inserted.1 hinserted, hnone⟩)
    have hclosing : (s.links i).closing.erased = true := by
      by_contra hno
      apply (h i).tasks.not_erase (Bool.eq_false_iff.2 hno)
      rw [Mailbox.all_eq_done]
      exact List.mem_append_left _ hdone
    constructor
    · by_contra hs
      rw [(h i).link.closing.2 hs] at hclosing
      cases hclosing
    · intro hcalling
      rw [hcalling] at hclosing
      cases hclosing

theorem Drained.setLink (h : s.Drained) {link : Link}
    (hinserted : link.inserted = true → (s.links i).inserted = true)
    (hlink : (s.links i).inserted = true → (s.links i).conn.status = .kDisConnected →
      (s.links i).closing ≠ .calling →
        link.conn.status = .kDisConnected ∧ link.closing ≠ .calling) :
    (s.setLink i link).Drained := by
  intro j hj
  by_cases hne : j = i
  · rw [hne, setLink_self] at hj ⊢
    exact hlink (hinserted hj) (h i (hinserted hj)).1 (h i (hinserted hj)).2
  · rw [setLink_of_ne s hne] at hj ⊢
    exact h j hj

/-- It stays so, as long as the base loop inserts no other connection. -/
theorem Drained.next (h : s.Drained) (hregistered : s.Registered) {l : ServerStep ι}
    (hl : s.Possible g l) (hrun : l ≠ .run) : (s.next g l).Drained := by
  cases l with
  | construct i fd =>
      refine Drained.setLink h id ?_
      intro _ hs
      exact absurd hs ((hregistered i).link.fresh (by rw [hl.1]; rfl))
  | submitInsert i => exact Drained.setLink h id fun _ hs hcalling => ⟨hs, hcalling⟩
  | resume i => exact Drained.setLink h id fun _ hs hcalling => ⟨hs, hcalling⟩
  | setCloseCallback i => exact Drained.setLink h id fun _ hs hcalling => ⟨hs, hcalling⟩
  | finishSetUp i => exact Drained.setLink h id fun _ hs hcalling => ⟨hs, hcalling⟩
  | work i l =>
      refine Drained.setLink h id ?_
      intro _ hs hcalling
      have hnot : ¬(s.links i).conn.effects.count .closeCallback <
          ((s.links i).conn.step l).effects.count .closeCallback := by
        rw [closeCallback_iff (hregistered i).link hl.1]
        exact fun hne => hne.1 hs
      rcases TcpConnection.step_disconnected hs l with ⟨closeRequested, heq⟩
      constructor
      · change ((s.links i).conn.step l).status = .kDisConnected
        rw [heq, hs]
      · change (if _ then Closing.calling else (s.links i).closing) ≠ .calling
        rwa [if_neg hnot]
  | submitErase i => exact Drained.setLink h id fun _ hs _ => ⟨hs, Closing.noConfusion⟩
  | closeDone i => exact Drained.setLink h id fun _ hs _ => ⟨hs, Closing.noConfusion⟩
  | swap => exact h
  | run => exact absurd rfl hrun
  | release => exact h
  | poll k active => exact h
  | handle k =>
      change (s.handle k).Drained
      unfold TcpServer.handle
      split
      · exact h
      · exact h
  | handled k => exact h

/-- An inserted connection stays inserted. -/
theorem inserted_next (g : Settings ι) (hi : (s.links i).inserted = true)
    (l : ServerStep ι) : ((s.next g l).links i).inserted = true := by
  have hset : ∀ (t : TcpServer ι) (j : ι) (link : Link), t.links = s.links →
      ((s.links j).inserted = true → link.inserted = true) →
        ((t.setLink j link).links i).inserted = true := by
    intro t j link ht hlink
    by_cases hne : i = j
    · rw [← hne, setLink_self]
      exact hlink (hne ▸ hi)
    · rw [setLink_of_ne t hne, ht]
      exact hi
  cases l with
  | construct j fd => exact hset s j _ rfl id
  | submitInsert j => exact hset (s.push (.insert j)) j _ rfl id
  | resume j => exact hset s j _ rfl id
  | setCloseCallback j => exact hset s j _ rfl id
  | finishSetUp j => exact hset s j _ rfl id
  | work j l => exact hset s j _ rfl id
  | submitErase j => exact hset (s.push (.erase j)) j _ rfl id
  | closeDone j => exact hset s j _ rfl id
  | swap => exact hi
  | run =>
      change (s.run.links i).inserted = true
      unfold TcpServer.run
      cases s.base.batch with
      | nil => exact hi
      | cons task rest =>
          cases task with
          | insert j => exact hset s j _ rfl fun _ => rfl
          | erase j => exact hi
  | release => exact hi
  | poll k active => exact hi
  | handle k =>
      change ((s.handle k).links i).inserted = true
      unfold TcpServer.handle
      split
      · exact hi
      · exact hi
  | handled k => exact hi

end TcpServer

namespace Lifetimes

variable {ι : Type} [DecidableEq ι] {g : Settings ι} {s s' : Lifetimes ι}

/-! ## Orderly runs -/

/-- `Close` is called once; a loop leaves `Loop` because it has been stopped; and the base
loop is destroyed when every connection in `tcpst_` is disconnected and has submitted its
erase task. -/
def Orderly (s : Lifetimes ι) : LifetimeStep ι → Prop
  | .close _ => s.closed = false
  | .leave loop => s.lives loop = .looping true
  | .finish none => ∀ i ∈ s.server.tcpst,
      (s.server.links i).conn.status = .kDisConnected ∧
        (s.server.links i).closing ≠ .calling
  | _ => True

instance (s : Lifetimes ι) : (l : LifetimeStep ι) → Decidable (s.Orderly l)
  | .close _ => inferInstanceAs (Decidable (s.closed = false))
  | .leave loop => inferInstanceAs (Decidable (s.lives loop = .looping true))
  | .finish none => inferInstanceAs (Decidable (∀ i ∈ s.server.tcpst,
      (s.server.links i).conn.status = .kDisConnected ∧
        (s.server.links i).closing ≠ .calling))
  | .finish (some _) | .server _ | .start _ | .retire | .joinOld | .launch | .started
  | .joinBase | .stopPool | .joinPool | .destroy _ | .enter _ =>
      inferInstanceAs (Decidable True)

/-- A sub-loop that nobody has stopped. -/
def Ready (s : Lifetimes ι) (k : LoopId) : Prop := (s.lives (some k)).isUnstopped = true

def PoolReady (s : Lifetimes ι) (ks : List LoopId) : Prop := ks.Nodup ∧ ∀ k ∈ ks, s.Ready k

/-- The sub-loops that `Start` and `Close` are about to use are there. -/
def OwnerOk (s : Lifetimes ι) : Owner ι → Prop
  | .idle => s.closed = false → s.PoolReady s.pool
  | .starting old rest new => s.closed = false → new.Nodup ∧ (∀ k ∈ old, k ∉ new) ∧
      ∀ k ∈ new, s.Ready k ∨ k ∈ rest
  | .joinBase _ => s.PoolReady s.pool
  | .stopPool _ rest => s.lives none = .ended ∧ s.PoolReady rest
  | .joinPool _ _ => s.lives none = .ended
  | .destroying rest => s.lives none = .ended ∧
      ∀ i ∈ rest, (s.server.links i).inserted = true

/-- **The invariant of orderly runs.** -/
structure InOrder (s : Lifetimes ι) : Prop where
  registered : s.server.Registered
  uses : ∀ u ∈ s.uses, u.live = true
  base : s.closed = false → (s.lives none).isUnstopped = true
  present : s.lives none ≠ .absent
  drained : s.lives none = .ended → s.server.Drained
  owner : s.OwnerOk s.owner

omit [DecidableEq ι] in
theorem lives_new_none : (new : Lifetimes ι).lives none = .constructed := rfl

theorem inOrder_new : (new : Lifetimes ι).InOrder where
  registered := TcpServer.registered_new
  uses := List.forall_mem_nil _
  base _ := by
    rw [lives_new_none]
    rfl
  present := by
    rw [lives_new_none]
    exact Life.noConfusion
  drained hended := by
    rw [lives_new_none] at hended
    cases hended
  owner := fun _ => ⟨List.nodup_nil, List.forall_mem_nil _⟩

omit [DecidableEq ι] in
theorem PoolReady.frame {ks : List LoopId} (h : s.PoolReady ks)
    (hready : ∀ k, s.Ready k → s'.Ready k) : s'.PoolReady ks :=
  ⟨h.1, fun k hk => hready k (h.2 k hk)⟩

omit [DecidableEq ι] in
/-- Steps of other threads, which stop no sub-loop. -/
theorem OwnerOk.frame {owner : Owner ι} (h : s.OwnerOk owner)
    (hclosed : s'.closed = s.closed) (hpool : s'.pool = s.pool)
    (hready : ∀ k, s.Ready k → s'.Ready k)
    (hended : s.lives none = .ended → s'.lives none = .ended)
    (hinserted : ∀ i, (s.server.links i).inserted = true →
      (s'.server.links i).inserted = true) : s'.OwnerOk owner := by
  cases owner with
  | idle =>
      intro hopen
      rw [hpool]
      rw [hclosed] at hopen
      exact (h hopen).frame hready
  | starting old rest new =>
      intro hopen
      rw [hclosed] at hopen
      rcases h hopen with ⟨hnodup, hold, hnew⟩
      exact ⟨hnodup, hold, fun k hk => (hnew k hk).imp_left (hready k)⟩
  | joinBase destructor =>
      change s'.PoolReady s'.pool
      rw [hpool]
      exact PoolReady.frame h hready
  | stopPool destructor rest => exact ⟨hended h.1, h.2.frame hready⟩
  | joinPool destructor rest => exact hended h
  | destroying rest => exact ⟨hended h.1, fun i hi => hinserted i (h.2 i hi)⟩

/-! ### Calls on loops -/

omit [DecidableEq ι] in
theorem forall_use {call : LoopCall} {loop : AnyLoop} (h : ∀ u ∈ s.uses, u.live = true)
    (hlive : (s.lives loop).isLive = true) : ∀ u ∈ (s.use call loop).uses, u.live = true := by
  intro u hu
  rcases List.mem_append.1 hu with hmem | hmem
  · exact h u hmem
  · rw [List.mem_singleton.1 hmem]
    exact hlive

theorem InOrder.uses_server (h : s.InOrder) {l : ServerStep ι}
    (hl : s.server.Possible g l) (hthread : s.HasThread g l) :
    ∀ u ∈ (s.serverUses g l).uses, u.live = true := by
  cases l with
  | submitErase i =>
      apply forall_use h.uses
      have hcalling : (s.server.links i).closing = .calling := hl
      have hinserted : (s.server.links i).inserted = true := by
        apply (h.registered i).link.inserted
        apply (h.registered i).passed_of_closing
        rw [hcalling]
        exact Closing.noConfusion
      have hended : s.lives none ≠ .ended := fun heq => (h.drained heq i hinserted).2 hcalling
      cases hlife : s.lives none with
      | absent => exact absurd hlife h.present
      | constructed | looping quit | leaving => rfl
      | ended => exact absurd hlife hended
  | work i l =>
      unfold serverUses
      dsimp only
      split
      · rename_i hremoved
        apply forall_use h.uses
        rcases hthread with hop | hlooping | hleaving
        · -- `requestClose` leaves the channel in its loop
          rcases l with ⟨op, ctl⟩
          subst hop
          rw [Bool.and_eq_true, Option.isNone_iff_eq_none] at hremoved
          have hnone : (s.server.links i).conn.channel.owner = none := hremoved.2
          rw [hnone] at hremoved
          exact absurd hremoved.1 Bool.noConfusion
        · exact Life.isLive_of_isLooping hlooping
        · rw [hleaving.1]
          rfl
      · exact h.uses
  | construct | submitInsert | resume | setCloseCallback | finishSetUp | closeDone | swap
  | run | release | poll | handle | handled => exact h.uses

/-! ### Steps of the loops -/

theorem InOrder.server (h : s.InOrder) {l : ServerStep ι} (hl : s.server.Possible g l)
    (hthread : s.HasThread g l) :
    InOrder { s.serverUses g l with server := s.server.next g l } := by
  have huses := h.uses_server hl hthread
  rw [serverUses_eq]
  constructor
  · exact h.registered.next hl
  · exact huses
  · exact h.base
  · exact h.present
  · intro hended
    refine (h.drained hended).next h.registered hl ?_
    intro hrun
    rw [hrun] at hthread
    change (s.lives none).isLooping = true at hthread
    rw [show s.lives none = .ended from hended] at hthread
    cases hthread
  · exact h.owner.frame rfl rfl (fun _ hk => hk) id
      fun i hi => TcpServer.inserted_next g hi l

/-- A loop moves on by itself. -/
theorem InOrder.setLife (h : s.InOrder) {loop : AnyLoop} {life : Life}
    (hready : (s.lives loop).isUnstopped = true → life.isUnstopped = true)
    (hended : s.lives loop = .ended → life = .ended) (hpresent : life ≠ .absent)
    (hdrained : loop = none → life = .ended → s.server.Drained) :
    (s.setLife loop life).InOrder := by
  have hlives : ∀ other, ((s.lives other).isUnstopped = true →
      ((s.setLife loop life).lives other).isUnstopped = true) ∧
      (s.lives other = .ended → (s.setLife loop life).lives other = .ended) := by
    intro other
    by_cases hne : other = loop
    · rw [hne, lives_setLife_self]
      exact ⟨hready, hended⟩
    · rw [lives_setLife_of_ne s hne]
      exact ⟨id, id⟩
  constructor
  · exact h.registered
  · exact h.uses
  · exact fun hopen => (hlives none).1 (h.base hopen)
  · by_cases hne : none = loop
    · rw [← hne, lives_setLife_self]
      exact hpresent
    · rw [lives_setLife_of_ne s hne]
      exact h.present
  · intro hnone
    by_cases hne : none = loop
    · rw [← hne, lives_setLife_self] at hnone
      exact hdrained hne.symm hnone
    · rw [lives_setLife_of_ne s hne] at hnone
      exact h.drained hnone
  · exact h.owner.frame rfl rfl (fun k => (hlives (some k)).1) (hlives none).2
      fun _ hi => hi

theorem InOrder.enter (h : s.InOrder) {loop : AnyLoop} (hl : s.lives loop = .constructed) :
    (s.setLife loop (.looping false)).InOrder := by
  apply h.setLife
  · exact fun _ => rfl
  · intro hended
    rw [hl] at hended
    cases hended
  · exact Life.noConfusion
  · intro _ hended
    cases hended

theorem InOrder.leave (h : s.InOrder) {loop : AnyLoop}
    (hstopped : s.lives loop = .looping true) : (s.setLife loop .leaving).InOrder := by
  apply h.setLife
  · intro hready
    rw [hstopped] at hready
    cases hready
  · intro hended
    rw [hstopped] at hended
    cases hended
  · exact Life.noConfusion
  · intro _ hended
    cases hended

theorem InOrder.finish (h : s.InOrder) {loop : AnyLoop} (hl : s.lives loop = .leaving)
    (hsafe : s.Orderly (.finish loop)) : (s.setLife loop .ended).InOrder := by
  apply h.setLife
  · intro hready
    rw [hl] at hready
    cases hready
  · exact fun _ => rfl
  · exact Life.noConfusion
  · intro hnone _
    rw [hnone] at hsafe
    exact h.registered.drained hsafe

/-! ### Steps of `Start` and `Close` -/

/-- A step of the owner that leaves the base loop alone. -/
theorem InOrder.ofOwner (h : s.InOrder) (hserver : s'.server = s.server)
    (huses : ∀ u ∈ s'.uses, u.live = true) (hlives : s'.lives none = s.lives none)
    (hclosed : s'.closed = s.closed) (howner : s'.OwnerOk s'.owner) : s'.InOrder := by
  constructor
  · rw [hserver]
    exact h.registered
  · exact huses
  · rw [hclosed, hlives]
    exact h.base
  · rw [hlives]
    exact h.present
  · rw [hserver, hlives]
    exact h.drained
  · exact howner

theorem InOrder.start (h : s.InOrder) {new : List LoopId}
    (hl : s.Possible g (.start new)) : (s.ownerStep (.start new)).InOrder := by
  rcases hl with ⟨hidle, hnodup, habsent⟩
  have howner := h.owner
  rw [hidle] at howner
  refine h.ofOwner rfl h.uses rfl rfl ?_
  intro hopen
  refine ⟨hnodup, ?_, fun k hk => .inr hk⟩
  intro k hk hnew
  have hready := (howner hopen).2 k hk
  unfold Ready at hready
  rw [habsent k hnew] at hready
  cases hready

theorem InOrder.retire (h : s.InOrder) : (s.ownerStep .retire).InOrder := by
  unfold ownerStep
  dsimp only
  split
  · rename_i k old rest new hcase
    have howner := h.owner
    refine h.ofOwner rfl h.uses (lives_setLife_some ..) rfl ?_
    change OwnerOk _ s.owner
    rw [hcase] at howner ⊢
    intro hopen
    rcases howner hopen with ⟨hnodup, hold, hnew⟩
    refine ⟨hnodup, hold, ?_⟩
    intro m hm
    have hne : m ≠ k := by
      intro heq
      exact hold k (List.mem_cons_self ..) (heq ▸ hm)
    unfold Ready
    rw [lives_setLife_some_of_ne s hne]
    exact hnew m hm
  · exact h

theorem InOrder.joinOld (h : s.InOrder) : (s.ownerStep .joinOld).InOrder := by
  unfold ownerStep
  dsimp only
  split
  · rename_i k old rest new hcase
    have howner := h.owner
    rw [hcase] at howner
    refine h.ofOwner rfl h.uses rfl rfl ?_
    intro hopen
    rcases howner hopen with ⟨hnodup, hold, hnew⟩
    exact ⟨hnodup, fun m hm => hold m (List.mem_cons_of_mem _ hm), hnew⟩
  · exact h

theorem InOrder.launch (h : s.InOrder) : (s.ownerStep .launch).InOrder := by
  unfold ownerStep
  dsimp only
  split
  · rename_i old k rest new hcase
    have howner := h.owner
    rw [hcase] at howner
    refine h.ofOwner rfl h.uses (lives_setLife_some s k .constructed) rfl ?_
    intro hopen
    rcases howner hopen with ⟨hnodup, hold, hnew⟩
    refine ⟨hnodup, hold, ?_⟩
    intro m hm
    change (s.setLife _ _).Ready m ∨ _
    unfold Ready
    by_cases heq : m = k
    · rw [heq, lives_setLife_self]
      exact .inl rfl
    · rw [lives_setLife_some_of_ne s heq]
      exact (hnew m hm).imp_right fun hmem => (List.mem_cons.1 hmem).resolve_left heq
  · exact h

theorem InOrder.started (h : s.InOrder) : (s.ownerStep .started).InOrder := by
  unfold ownerStep
  dsimp only
  split
  · rename_i new hcase
    have howner := h.owner
    rw [hcase] at howner
    refine h.ofOwner rfl h.uses rfl rfl ?_
    intro hopen
    rcases howner hopen with ⟨hnodup, _, hnew⟩
    exact ⟨hnodup, fun k hk => (hnew k hk).resolve_right List.not_mem_nil⟩
  · exact h

theorem InOrder.close (h : s.InOrder) {destructor : Bool}
    (hl : s.Possible g (.close destructor)) (hsafe : s.Orderly (.close destructor)) :
    (s.ownerStep (.close destructor)).InOrder := by
  have hidle : s.owner = .idle := hl
  have hopen : s.closed = false := hsafe
  have hready := h.base hopen
  have howner := h.owner
  rw [hidle] at howner
  have hlives : (s.ownerStep (.close destructor)).lives none = (s.lives none).stop :=
    lives_setLife_self (s.use .stopLoop none) none _
  constructor
  · exact h.registered
  · exact forall_use h.uses (Life.isLive_of_isUnstopped hready)
  · intro hclosed
    cases hclosed
  · rw [hlives]
    exact Life.stop_ne h.present Life.noConfusion
  · intro hended
    rw [hlives] at hended
    refine absurd hended (Life.stop_ne ?_ Life.noConfusion)
    intro heq
    rw [heq] at hready
    cases hready
  · refine (howner hopen).frame ?_
    intro k hk
    change ((s.stopLoop none).lives (some k)).isUnstopped = true
    unfold stopLoop
    rwa [lives_setLife_of_ne _ (Option.some_ne_none k)]

theorem InOrder.joinBase (h : s.InOrder) (hl : s.Possible g .joinBase) :
    (s.ownerStep .joinBase).InOrder := by
  unfold ownerStep
  dsimp only
  split
  · rename_i destructor hcase
    have howner := h.owner
    rw [hcase] at howner
    have hended : s.lives none = .ended := hl none (by rw [hcase]; rfl)
    exact h.ofOwner rfl h.uses rfl rfl ⟨hended, howner⟩
  · exact h

theorem InOrder.stopPool (h : s.InOrder) : (s.ownerStep .stopPool).InOrder := by
  unfold ownerStep
  dsimp only
  split
  · rename_i destructor k rest hcase
    have howner := h.owner
    rw [hcase] at howner
    rcases howner with ⟨hended, hnodup, hready⟩
    rw [List.nodup_cons] at hnodup
    refine h.ofOwner rfl ?_ ?_ ?_ ?_
    · exact forall_use h.uses
        (Life.isLive_of_isUnstopped (hready k (List.mem_cons_self ..)))
    · exact lives_setLife_some (s.use .stopLoop (some k)) k (s.lives (some k)).stop
    · rfl
    · refine ⟨hended, hnodup.2, ?_⟩
      intro m hm
      have hne : m ≠ k := by
        intro heq
        exact hnodup.1 (heq ▸ hm)
      change ((s.stopLoop _).lives _).isUnstopped = true
      unfold stopLoop
      rw [lives_setLife_some_of_ne _ hne]
      exact hready m (List.mem_cons_of_mem _ hm)
  · rename_i destructor hcase
    have howner := h.owner
    rw [hcase] at howner
    exact h.ofOwner rfl h.uses rfl rfl howner.1
  · exact h

theorem InOrder.joinPool (h : s.InOrder) : (s.ownerStep .joinPool).InOrder := by
  unfold ownerStep
  dsimp only
  split
  · rename_i destructor k rest hcase
    have howner := h.owner
    rw [hcase] at howner
    exact h.ofOwner rfl h.uses rfl rfl howner
  · rename_i hcase
    have howner := h.owner
    rw [hcase] at howner
    refine h.ofOwner rfl h.uses rfl rfl ?_
    refine ⟨howner, ?_⟩
    intro i hi
    have htasks := (h.registered i).tasks
    exact htasks.inserted.2 (htasks.tcpst.1 hi).1
  · rename_i hcase
    have howner := h.owner
    rw [hcase] at howner
    refine h.ofOwner rfl h.uses rfl rfl ?_
    intro hopen
    have hbase := h.base hopen
    rw [show s.lives none = .ended from howner] at hbase
    cases hbase
  · exact h

/-- When `tcpst_` is destroyed, its connections are disconnected. -/
theorem InOrder.destroy (h : s.InOrder) {i : ι} (hl : s.Possible g (.destroy i)) :
    (s.destroy i).InOrder := by
  have hi : i ∈ s.owner.toDestroy := hl
  have howner := h.owner
  cases hcase : s.owner with
  | destroying rest =>
      rw [hcase] at hi howner
      rcases howner with ⟨hended, hinserted⟩
      have hdrained := h.drained hended i (hinserted i hi)
      unfold Lifetimes.destroy
      rw [((h.registered i).link.unregistered hdrained.1).1]
      dsimp only
      rw [hcase]
      exact h.ofOwner rfl h.uses rfl rfl
        ⟨hended, fun j hj => hinserted j (Finset.mem_of_mem_erase hj)⟩
  | idle | starting | joinBase | stopPool | joinPool =>
      rw [hcase] at hi
      exact absurd hi (Finset.notMem_empty i)

/-! ### Runs -/

/-- **Step lemma.** -/
theorem InOrder.next (h : s.InOrder) {l : LifetimeStep ι} (hl : s.Possible g l)
    (hsafe : s.Orderly l) : (s.next g l).InOrder := by
  cases l with
  | server l => exact h.server hl.1 hl.2
  | start new => exact h.start hl
  | retire => exact h.retire
  | joinOld => exact h.joinOld
  | launch => exact h.launch
  | started => exact h.started
  | close destructor => exact h.close hl hsafe
  | joinBase => exact h.joinBase hl
  | stopPool => exact h.stopPool
  | joinPool => exact h.joinPool
  | destroy i => exact h.destroy hl
  | enter loop => exact h.enter hl
  | leave loop => exact h.leave hsafe
  | finish loop => exact h.finish hl.1 hsafe

/-- **When a shutdown uses no loop that has ended.**  In every run in which `Close` is
called once, loops end because they are stopped, and the base loop ends when every
connection in `tcpst_` is disconnected with its erase task submitted, every call on a loop
finds it live. -/
theorem uses_live (g : Settings ι) (ls : List (LifetimeStep ι))
    (hlegal : (lifetimes g).Legal new ls) (hsafe : (lifetimes g).Each Orderly new ls) :
    ∀ u ∈ ((lifetimes g).run new ls).uses, u.live = true := by
  have hinv := (lifetimes g).run_invariant_each inOrder_new
    (fun _ _ h hl hsafe => h.next hl hsafe) ls hlegal hsafe
  exact hinv.uses

end Lifetimes

/-! ## Uses of loops that have ended -/

/-- One sub-loop is started. -/
def startedOnce : List (LifetimeStep Bool) :=
  [.enter none, .start [1], .launch, .enter (some 1), .started]

/-- A connection is accepted, set up and activated on it. -/
def connectedOnce : List (LifetimeStep Bool) :=
  [.construct true 5, .submitInsert true, .swap, .run, .resume true, .setCloseCallback true,
    .work true ⟨.activate, ⟨true, true⟩⟩, .finishSetUp true, .release].map .server

/-- `Close` stops the base loop, which ends. -/
def closedBase (destructor : Bool) : List (LifetimeStep Bool) :=
  [.close destructor, .leave none, .finish none, .joinBase]

/-- `Close` stops the sub-loop, which ends. -/
def closedPool : List (LifetimeStep Bool) :=
  [.stopPool, .stopPool, .leave (some 1), .finish (some 1), .joinPool, .joinPool]

/-- A second `Close` stops the base loop again.  With one `Close`, and a connection that is
open: the peer closes it before the sub-loop is stopped; or nobody does, and it is
destroyed with `tcpst_`. -/
theorem ended_used :
    let g : Settings Bool := ⟨fun _ => 1, false, fun _ => true⟩
    (let ls := startedOnce ++ closedBase false ++ closedPool ++ [.close true]
     (lifetimes g).Legal .new ls ∧
       ⟨.stopLoop, none, false⟩ ∈ ((lifetimes g).run .new ls).uses) ∧
    (let ls := startedOnce ++ connectedOnce ++ closedBase true ++
        [.server (.work true ⟨.close, ⟨true, true⟩⟩), .server (.submitErase true)]
     (lifetimes g).Legal .new ls ∧
       ⟨.submit, none, false⟩ ∈ ((lifetimes g).run .new ls).uses) ∧
    (let ls := startedOnce ++ connectedOnce ++ closedBase true ++ closedPool ++
        [.destroy true]
     (lifetimes g).Legal .new ls ∧
       ⟨.deleteChannel, some 1, false⟩ ∈ ((lifetimes g).run .new ls).uses) := by
  decide

/-- The connection is closed and erased before the only `Close`. -/
theorem uses_live_one :
    let g : Settings Bool := ⟨fun _ => 1, false, fun _ => true⟩
    let ls := startedOnce ++ connectedOnce ++
      [.work true ⟨.close, ⟨true, true⟩⟩, .submitErase true, .closeDone true, .swap, .run,
        .release].map .server ++ closedBase true ++ closedPool
    ∀ u ∈ ((lifetimes g).run .new ls).uses, u.live = true := by
  intro g ls
  exact Lifetimes.uses_live g ls (by decide) (by decide)

end Adachi.Network
