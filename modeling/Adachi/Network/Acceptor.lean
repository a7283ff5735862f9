import Adachi.Io.Channel
import Adachi.Lib.RoundRobin
import Adachi.Tool.EventLoop
import Adachi.Tool.EventLoopThreadPool

/-!
# `adachi::network::Acceptor`: handing connections out

The read callback of the acceptor's channel (`src/acceptor.cpp`) accepts connections until
`accept4` has no more; the server's callback for a new connection asks the pool for a loop and
submits the set-up to it (`src/tcpserver.cpp`).  All this is the thread of the base loop.  Other
threads call `SetSubThreadNum`, `Start` and `Close` in the meantime, and the sub-loops run as
`Adachi.Tool.EventLoop` has it, with tasks from everywhere.

The calls on the pool are atomic.  The addresses of the peers are the subject of
`Adachi.Network.INetAddress`, and the log texts are left out.

## Main results

* `accepted_handed_out`: every connection that is accepted is set up on one loop, in turn.
* `handed_out_evenly`: and no loop gets more than its share.
-/

namespace Adachi.Network

open Adachi.Io Adachi.Tool

/-! ## States -/

/-- Where the thread of the base loop is: outside the read callback; before `Accept`; with a new
connection before `GetOneThread`, before the `Submit` to its loop, before the `WakeUp` in it. -/
inductive Accepting where
  | outside
  | accept
  | getOneThread (fd : Nat)
  | submit (fd : Nat) (k : LoopId)
  | wakeUp (k : LoopId)
  | fault (f : Fault)
  deriving DecidableEq

namespace Accepting

/-- The accepted connection that no loop has been given yet. -/
def inHand : Accepting → List Nat
  | .getOneThread fd => [fd]
  | .submit fd _ => [fd]
  | _ => []

def atGetOneThread : Accepting → Bool
  | .getOneThread _ => true
  | _ => false

def atSubmit : Accepting → Bool
  | .submit _ _ => true
  | _ => false

def atWakeUp : Accepting → Bool
  | .wakeUp _ => true
  | _ => false

end Accepting

/-- A task of a sub-loop: the set-up of an accepted connection, or another one. -/
inductive SubTask (τ : Type) where
  | setUp (fd : Nat)
  | other (task : τ)
  deriving DecidableEq

/-- The connection that a task sets up. -/
def SubTask.connection? {τ : Type} : SubTask τ → Option Nat
  | .setUp fd => some fd
  | .other _ => none

/-- The threads that use a sub-loop are that of the base loop, `none`, and any others. -/
structure Acceptor (τ ι : Type) where
  pool : EventLoopThreadPool LoopId
  listenCheck : Bool
  baseLeft : Bool
  state : Accepting
  loops : LoopId → EventLoop (SubTask τ) (Option ι)

/-- `start` has the loops that `EventLoopThread::Start` returns and the result of `listen`;
`loop` is a step of a sub-loop or of another thread that uses it. -/
inductive AcceptStep (τ ι : Type) where
  | setSubThreadNum (num : UInt32)
  | start (loops : Nat → LoopId) (listens : Bool)
  | baseLeaves
  | close
  | readable
  | accept (result : SysResult Nat)
  | getOneThread
  | submit
  | wakeUp
  | loop (k : LoopId) (l : LoopLabel (SubTask τ) (Option ι))

/-- Another thread than that of the base loop takes the step, and it sets no connection up. -/
def ByOther {τ ι : Type} : LoopLabel (SubTask τ) (Option ι) → Prop
  | .submit t task => t ≠ none ∧ task.connection? = none
  | .submitAndWait t task => t ≠ none ∧ task.connection? = none
  | .stopLoop t => t ≠ none
  | .wakeUp t => t ≠ none
  | .resume t => t ≠ none
  | _ => True

instance {τ ι : Type} [DecidableEq ι] :
    (l : LoopLabel (SubTask τ) (Option ι)) → Decidable (ByOther l)
  | .submit t task | .submitAndWait t task =>
      inferInstanceAs (Decidable (t ≠ none ∧ task.connection? = none))
  | .stopLoop t | .wakeUp t | .resume t => inferInstanceAs (Decidable (t ≠ none))
  | .loop | .poll _ | .pollFailed _ | .handle _ => inferInstanceAs (Decidable True)

namespace Acceptor

variable {τ ι : Type}

/-- After `TcpServer(listenaddr, ..)`, which sets the size of the pool to 1. -/
def new : Acceptor τ ι where
  pool := EventLoopThreadPool.new.setSize 1
  listenCheck := false
  baseLeft := false
  state := .outside
  loops := fun _ => .new

/-! ## Steps -/

def setLoop (s : Acceptor τ ι) (k : LoopId) (loop : EventLoop (SubTask τ) (Option ι)) :
    Acceptor τ ι :=
  { s with loops := Function.update s.loops k loop }

/-- `GetOneThread`; where it returns `nullptr` the descriptor is closed at once. -/
def getOneThread (s : Acceptor τ ι) : Acceptor τ ι :=
  match s.state with
  | .getOneThread fd =>
      match s.pool.getOneThread with
      | .ok (some k, pool) => { s with pool := pool, state := .submit fd k }
      | .ok (none, pool) => { s with pool := pool, state := .accept }
      | .error f => { s with state := .fault f }
  | _ => s

/-- What follows a call of `Accept` in the loop of the read callback. -/
def accepted : SysResult Nat → Accepting
  | .ok fd => .getOneThread fd
  | .error .eagain => .outside
  | .error .ewouldblock => .outside
  | .error .eintr => .accept
  | .error (.other _) => .outside

variable [DecidableEq ι]

def next (s : Acceptor τ ι) : AcceptStep τ ι → Acceptor τ ι
  | .setSubThreadNum num => { s with pool := s.pool.setSize num }
  | .start loops listens =>
      { s with pool := s.pool.start loops, listenCheck := s.listenCheck || listens }
  | .baseLeaves => { s with baseLeft := true }
  | .close =>
      match s.pool.close with
      | .ok pool => { s with pool := pool }
      | .error f => { s with state := .fault f }
  | .readable => { s with state := .accept }
  | .accept result => { s with state := accepted result }
  | .getOneThread => s.getOneThread
  | .submit =>
      match s.state with
      | .submit fd k =>
          { s.setLoop k ((s.loops k).next (.submit none (.setUp fd))) with state := .wakeUp k }
      | _ => s
  | .wakeUp =>
      match s.state with
      | .wakeUp k => { s.setLoop k ((s.loops k).next (.wakeUp none)) with state := .accept }
      | _ => s
  | .loop k l => s.setLoop k ((s.loops k).next l)

/-- `Start` makes new loops and waits until each of them is published; it is called while the pool
is not running, since it destroys the loops it replaces.  `Close` joins the thread of the base
loop before it closes the pool. -/
def Possible (s : Acceptor τ ι) : AcceptStep τ ι → Prop
  | .setSubThreadNum _ => True
  | .start loops _ =>
      s.pool.running = false ∧ s.pool.num.toNat ≤ pidMaxLimit ∧
        (s.pool.start loops).operThreads.Nodup ∧
        ∀ k ∈ (s.pool.start loops).operThreads, (s.loops k).state ≠ .publish
  | .baseLeaves => s.state = .outside
  | .close => s.baseLeft = true
  | .readable => s.state = .outside ∧ s.listenCheck = true ∧ s.baseLeft = false
  | .accept _ => s.state = .accept
  | .getOneThread => s.state.atGetOneThread = true
  | .submit => s.state.atSubmit = true
  | .wakeUp => s.state.atWakeUp = true
  | .loop k l => (s.loops k).Possible l ∧ ByOther l

instance (s : Acceptor τ ι) : (l : AcceptStep τ ι) → Decidable (s.Possible l)
  | .setSubThreadNum _ => inferInstanceAs (Decidable True)
  | .start loops _ => inferInstanceAs (Decidable
      (s.pool.running = false ∧ s.pool.num.toNat ≤ pidMaxLimit ∧
        (s.pool.start loops).operThreads.Nodup ∧
        ∀ k ∈ (s.pool.start loops).operThreads, (s.loops k).state ≠ .publish))
  | .baseLeaves => inferInstanceAs (Decidable (s.state = .outside))
  | .close => inferInstanceAs (Decidable (s.baseLeft = true))
  | .readable => inferInstanceAs
      (Decidable (s.state = .outside ∧ s.listenCheck = true ∧ s.baseLeft = false))
  | .accept _ => inferInstanceAs (Decidable (s.state = .accept))
  | .getOneThread => inferInstanceAs (Decidable (s.state.atGetOneThread = true))
  | .submit => inferInstanceAs (Decidable (s.state.atSubmit = true))
  | .wakeUp => inferInstanceAs (Decidable (s.state.atWakeUp = true))
  | .loop k l => inferInstanceAs (Decidable ((s.loops k).Possible l ∧ ByOther l))

/-! ## Observations -/

/-- The connections that `Accept` returns. -/
def acceptedFds (_ : Acceptor τ ι) : AcceptStep τ ι → List Nat
  | .accept (.ok fd) => [fd]
  | _ => []

/-- The loops that `GetOneThread` returns. -/
def chosen (s : Acceptor τ ι) : AcceptStep τ ι → List (Option LoopId)
  | .getOneThread =>
      match s.pool.getOneThread with
      | .ok (ret, _) => [ret]
      | .error _ => []
  | _ => []

/-- The set-ups that are submitted. -/
def handedOut (s : Acceptor τ ι) : AcceptStep τ ι → List (LoopId × Nat)
  | .submit =>
      match s.state with
      | .submit fd k => [(k, fd)]
      | _ => []
  | _ => []

/-- The set-ups of a sub-loop in the order of its tasks, whether they have run or not. -/
def setUps (s : Acceptor τ ι) (k : LoopId) : List Nat :=
  (s.loops k).missions.all.filterMap fun m => m.task.connection?

end Acceptor

def acceptor (τ ι : Type) [DecidableEq ι] : Machine (Acceptor τ ι) (AcceptStep τ ι) where
  next := Acceptor.next
  enabled := Acceptor.Possible

instance (τ ι : Type) [DecidableEq ι] (s : Acceptor τ ι) (l : AcceptStep τ ι) :
    Decidable ((acceptor τ ι).enabled s l) :=
  inferInstanceAs (Decidable (s.Possible l))

end Adachi.Network

namespace Adachi.Tool.EventLoop

open Adachi.Network

/-! ## What a step leaves alone -/

section Frame

variable {τ ι : Type} [DecidableEq ι] {s : EventLoop τ ι}

theorem next_ne_publish (h : s.state ≠ .publish) {l : LoopLabel τ ι} (hl : s.Possible l) :
    (s.next l).state ≠ .publish := by
  cases l with
  | loop =>
      change s.loop.state ≠ .publish
      unfold EventLoop.loop
      cases hstate : s.state with
      | publish => exact absurd hstate h
      | start | swap | left => simp [hstate]
      | check =>
          dsimp only
          split
          · exact nofun
          · exact nofun
      | poll => exact h
      | handle active =>
          cases active with
          | nil => exact nofun
          | cons wakeup rest => exact h
      | run =>
          dsimp only
          split
          · exact nofun
          · exact h
  | poll active => exact nofun
  | pollFailed retry =>
      cases retry with
      | true => exact nofun
      | false => exact nofun
  | handle drained =>
      rcases exists_of_canHandle hl with ⟨wakeup, rest, hstate⟩
      change (s.handle drained).state ≠ .publish
      rw [handle_cons hstate]
      exact nofun
  | submit | submitAndWait | stopLoop | resume => exact h
  | wakeUp t =>
      rcases exists_of_isWaking hl with ⟨call, hcall⟩
      rw [next_wakeUp hcall]
      exact h

end Frame

/-- A step of another thread leaves the thread of the base loop where it is. -/
theorem next_threads_none {τ ι : Type} [DecidableEq ι] {s : EventLoop (SubTask τ) (Option ι)}
    {l : LoopLabel (SubTask τ) (Option ι)} (hl : s.Possible l) (hother : ByOther l) :
    (s.next l).threads none = s.threads none := by
  cases l with
  | loop => exact congrFun s.loop_threads none
  | poll | pollFailed => rfl
  | handle drained =>
      rcases exists_of_canHandle hl with ⟨wakeup, rest, hstate⟩
      change (s.handle drained).threads none = _
      rw [handle_cons hstate]
  | submit t task => exact Function.update_of_ne hother.1.symm ..
  | submitAndWait t task => exact Function.update_of_ne hother.1.symm ..
  | stopLoop t => exact Function.update_of_ne (Ne.symm hother) ..
  | wakeUp t =>
      rcases exists_of_isWaking hl with ⟨call, hcall⟩
      rw [next_wakeUp hcall]
      exact Function.update_of_ne (Ne.symm hother) ..
  | resume t => exact Function.update_of_ne (Ne.symm hother) ..

end Adachi.Tool.EventLoop

namespace Adachi.Network

open Adachi.Io Adachi.Tool

namespace Acceptor

variable {τ ι : Type} {s : Acceptor τ ι}

/-! ## The invariant -/

/-- The pool is running while the base loop accepts; the loops that the pool and the base loop
know are published; the base loop's thread is in no call on a sub-loop but the `Submit` of the
connection it hands out. -/
structure Serving (s : Acceptor τ ι) : Prop where
  sized : s.pool.Sized
  nodup : s.pool.operThreads.Nodup
  published : ∀ k ∈ s.pool.operThreads, (s.loops k).state ≠ .publish
  running : s.listenCheck = true → s.baseLeft = false → s.pool.running = true
  accepting : s.state ≠ .outside → s.listenCheck = true ∧ s.baseLeft = false
  target : ∀ fd k, s.state = .submit fd k → (s.loops k).state ≠ .publish
  waking : ∀ k, (s.loops k).threads none = if s.state = .wakeUp k then .waking .submit else .idle
  noFault : ∀ f, s.state ≠ .fault f

theorem Serving.new : (new : Acceptor τ ι).Serving where
  sized := EventLoopThreadPool.Sized.new.setSize 1
  nodup := List.nodup_nil
  published := nofun
  running := nofun
  accepting h := absurd rfl h
  target := nofun
  waking _ := rfl
  noFault := nofun

theorem Serving.setSubThreadNum (h : s.Serving) (num : UInt32) :
    ({ s with pool := s.pool.setSize num } : Acceptor τ ι).Serving := by
  have hloops : (s.pool.setSize num).operThreads = s.pool.operThreads := by
    unfold EventLoopThreadPool.setSize
    split
    · rfl
    · rfl
  have hrunning : (s.pool.setSize num).running = s.pool.running := by
    unfold EventLoopThreadPool.setSize
    split
    · rfl
    · rfl
  refine ⟨h.sized.setSize num, ?_, ?_, ?_, h.accepting, h.target, h.waking, h.noFault⟩
  · exact hloops ▸ h.nodup
  · exact hloops ▸ h.published
  · exact hrunning ▸ h.running

/-- The pool is running when the base loop asks it for a loop. -/
theorem Serving.getOneThread (h : s.Serving) {fd : Nat} (hstate : s.state = .getOneThread fd) :
    ∃ k pool, s.pool.operThreads[s.pool.pos.toNat % s.pool.num.toNat]? = some k ∧
      pool = { s.pool with pos := ((s.pool.pos.toNat + 1) % s.pool.num.toNat : Nat) } ∧
      s.pool.getOneThread = .ok (some k, pool) ∧ pool.Sized ∧
      s.getOneThread = { s with pool := pool, state := .submit fd k } := by
  have hserving := h.accepting (by rw [hstate]; exact nofun)
  have hrunning := h.running hserving.1 hserving.2
  rcases h.sized.getOneThread hrunning with ⟨k, hk, hcall⟩
  refine ⟨k, _, hk, rfl, hcall, h.sized.move hrunning _, ?_⟩
  unfold Acceptor.getOneThread
  rw [hstate]
  dsimp only
  rw [hcall]

/-- A step on one loop that keeps it published and where the base loop's thread is. -/
theorem Serving.setLoop (h : s.Serving) {k : LoopId} {loop : EventLoop (SubTask τ) (Option ι)}
    (hpublished : (s.loops k).state ≠ .publish → loop.state ≠ .publish)
    (hthreads : loop.threads none = (s.loops k).threads none) : (s.setLoop k loop).Serving where
  sized := h.sized
  nodup := h.nodup
  published j hj := by
    by_cases hne : j = k
    · subst hne
      show (Function.update s.loops j loop j).state ≠ _
      rw [Function.update_self]
      exact hpublished (h.published j hj)
    · show (Function.update s.loops k loop j).state ≠ _
      rw [Function.update_of_ne hne]
      exact h.published j hj
  running := h.running
  accepting := h.accepting
  target fd j hj := by
    by_cases hne : j = k
    · subst hne
      show (Function.update s.loops j loop j).state ≠ _
      rw [Function.update_self]
      exact hpublished (h.target fd j hj)
    · show (Function.update s.loops k loop j).state ≠ _
      rw [Function.update_of_ne hne]
      exact h.target fd j hj
  waking j := by
    by_cases hne : j = k
    · subst hne
      show (Function.update s.loops j loop j).threads none = _
      rw [Function.update_self, hthreads]
      exact h.waking j
    · show (Function.update s.loops k loop j).threads none = _
      rw [Function.update_of_ne hne]
      exact h.waking j
  noFault := h.noFault

theorem Serving.goTo (h : s.Serving) {state : Accepting} (hnow : ∀ k, s.state ≠ .wakeUp k)
    (hthen : ∀ k, state ≠ .wakeUp k) (htarget : ∀ fd k, state ≠ .submit fd k)
    (hfault : ∀ f, state ≠ .fault f)
    (haccepting : state ≠ .outside → s.listenCheck = true ∧ s.baseLeft = false) :
    ({ s with state := state } : Acceptor τ ι).Serving where
  sized := h.sized
  nodup := h.nodup
  published := h.published
  running := h.running
  accepting := haccepting
  target fd k hk := absurd hk (htarget fd k)
  waking k := by
    rw [if_neg (hthen k), h.waking k, if_neg (hnow k)]
  noFault := hfault

theorem Serving.accept (h : s.Serving) (hstate : s.state = .accept) (result : SysResult Nat) :
    ({ s with state := accepted result } : Acceptor τ ι).Serving := by
  have hserving := h.accepting (by rw [hstate]; exact nofun)
  have hnow : ∀ k, s.state ≠ .wakeUp k := fun k => by rw [hstate]; exact nofun
  cases result with
  | ok fd => exact h.goTo hnow nofun nofun nofun fun _ => hserving
  | error e =>
      cases e with
      | eagain | ewouldblock | other =>
          exact h.goTo hnow nofun nofun nofun fun hne => absurd rfl hne
      | eintr => exact h.goTo hnow nofun nofun nofun fun _ => hserving

theorem Serving.choose (h : s.Serving) (hstate : s.state.atGetOneThread = true) :
    s.getOneThread.Serving := by
  cases hfd : s.state with
  | getOneThread fd =>
      rcases h.getOneThread hfd with ⟨k, pool, hk, rfl, _, hsized, heq⟩
      rw [heq]
      refine ⟨hsized, h.nodup, h.published, h.running, ?_, ?_, ?_, nofun⟩
      · exact fun _ => h.accepting (by rw [hfd]; exact nofun)
      · intro fd' k' hk'
        cases hk'
        exact h.published k (List.mem_of_getElem? hk)
      · intro j
        have hwaking := h.waking j
        rw [hfd] at hwaking
        exact hwaking
  | outside | accept | submit | wakeUp | fault =>
      rw [hfd] at hstate
      cases hstate

variable [DecidableEq ι]

theorem Serving.submit (h : s.Serving) {fd : Nat} {k : LoopId} (hstate : s.state = .submit fd k) :
    ({ s.setLoop k ((s.loops k).next (.submit none (.setUp fd))) with state := .wakeUp k } :
      Acceptor τ ι).Serving := by
  have hidle : ∀ j, (s.loops j).threads none = .idle := by
    intro j
    rw [h.waking j, hstate]
    rfl
  have hloop : ∀ j, (Function.update s.loops k
      ((s.loops k).next (.submit none (.setUp fd))) j).state = (s.loops j).state := by
    intro j
    by_cases hne : j = k
    · subst hne
      rw [Function.update_self]
      rfl
    · rw [Function.update_of_ne hne]
  refine ⟨h.sized, h.nodup, ?_, h.running, ?_, nofun, ?_, nofun⟩
  · exact fun j hj => (hloop j).symm ▸ h.published j hj
  · exact fun _ => h.accepting (by rw [hstate]; exact nofun)
  · intro j
    by_cases hne : j = k
    · subst hne
      show (Function.update s.loops j
        ((s.loops j).next (.submit none (.setUp fd))) j).threads none = _
      rw [Function.update_self, if_pos rfl]
      exact EventLoop.setThread_self ..
    · show (Function.update s.loops k
        ((s.loops k).next (.submit none (.setUp fd))) j).threads none = _
      have hother : Accepting.wakeUp k ≠ .wakeUp j := fun heq => hne (Accepting.wakeUp.inj heq).symm
      rw [Function.update_of_ne hne, if_neg hother]
      exact hidle j

theorem Serving.wakeUp (h : s.Serving) {k : LoopId} (hstate : s.state = .wakeUp k) :
    ({ s.setLoop k ((s.loops k).next (.wakeUp none)) with state := .accept } :
      Acceptor τ ι).Serving := by
  have hwaking : (s.loops k).threads none = .waking .submit := by
    rw [h.waking k, if_pos hstate]
  have hnext := EventLoop.next_wakeUp hwaking
  have hloop : ∀ j, (Function.update s.loops k ((s.loops k).next (.wakeUp none)) j).state =
      (s.loops j).state := by
    intro j
    by_cases hne : j = k
    · subst hne
      rw [Function.update_self, hnext]
      rfl
    · rw [Function.update_of_ne hne]
  refine ⟨h.sized, h.nodup, ?_, h.running, ?_, nofun, ?_, nofun⟩
  · exact fun j hj => (hloop j).symm ▸ h.published j hj
  · exact fun _ => h.accepting (by rw [hstate]; exact nofun)
  · intro j
    by_cases hne : j = k
    · subst hne
      show (Function.update s.loops j ((s.loops j).next (.wakeUp none)) j).threads none = _
      rw [Function.update_self, hnext]
      exact EventLoop.setThread_self ..
    · show (Function.update s.loops k ((s.loops k).next (.wakeUp none)) j).threads none = _
      rw [Function.update_of_ne hne, h.waking j, hstate]
      exact if_neg fun heq => hne (Accepting.wakeUp.inj heq).symm

/-- **Step lemma.** -/
theorem Serving.next (h : s.Serving) {l : AcceptStep τ ι} (hl : s.Possible l) :
    (s.next l).Serving := by
  cases l with
  | setSubThreadNum num => exact h.setSubThreadNum num
  | start loops listens =>
      obtain ⟨-, hnum, hnodup, hpublished⟩ := hl
      refine ⟨h.sized.start loops hnum, hnodup, hpublished, fun _ _ => rfl, ?_, h.target,
        h.waking, h.noFault⟩
      intro hne
      have hserving := h.accepting hne
      refine ⟨?_, hserving.2⟩
      show (s.listenCheck || listens) = true
      rw [hserving.1, Bool.true_or]
  | baseLeaves =>
      refine ⟨h.sized, h.nodup, h.published, nofun, ?_, h.target, h.waking, h.noFault⟩
      exact fun hne => absurd hl hne
  | close =>
      have hleft : s.baseLeft = true := hl
      unfold Acceptor.next
      dsimp only
      rw [h.sized.close]
      refine ⟨h.sized.closed, h.nodup, h.published, ?_, h.accepting, h.target, h.waking, h.noFault⟩
      intro _ hstays
      rw [hleft] at hstays
      cases hstays
  | readable =>
      refine h.goTo (fun k => ?_) nofun nofun nofun fun _ => hl.2
      rw [hl.1]
      exact nofun
  | accept result => exact h.accept hl result
  | getOneThread => exact h.choose hl
  | submit =>
      unfold Acceptor.next
      dsimp only
      split
      · rename_i hstate
        exact h.submit hstate
      · exact h
  | wakeUp =>
      unfold Acceptor.next
      dsimp only
      split
      · rename_i hstate
        exact h.wakeUp hstate
      · exact h
  | loop k l =>
      refine h.setLoop (fun hpublished => ?_) ?_
      · exact EventLoop.next_ne_publish hpublished hl.1
      · exact EventLoop.next_threads_none hl.1 hl.2

theorem serving_run : ∀ ls, (acceptor τ ι).Legal new ls → ((acceptor τ ι).run new ls).Serving :=
  (acceptor τ ι).run_invariant Serving.new fun _ _ h hl => h.next hl

/-! ## The loops in a run -/

theorem next_submit {fd : Nat} {k : LoopId} (h : s.state = .submit fd k) :
    s.next .submit =
      { s.setLoop k ((s.loops k).next (.submit none (.setUp fd))) with state := .wakeUp k } := by
  unfold Acceptor.next
  rw [h]

theorem next_wakeUp {k : LoopId} (h : s.state = .wakeUp k) :
    s.next .wakeUp = { s.setLoop k ((s.loops k).next (.wakeUp none)) with state := .accept } := by
  unfold Acceptor.next
  rw [h]

omit [DecidableEq ι] in
theorem exists_of_atSubmit (h : s.state.atSubmit = true) : ∃ fd k, s.state = .submit fd k := by
  cases hstate : s.state with
  | submit fd k => exact ⟨fd, k, rfl⟩
  | outside | accept | getOneThread | wakeUp | fault =>
      rw [hstate] at h
      cases h

omit [DecidableEq ι] in
theorem exists_of_atWakeUp (h : s.state.atWakeUp = true) : ∃ k, s.state = .wakeUp k := by
  cases hstate : s.state with
  | wakeUp k => exact ⟨k, rfl⟩
  | outside | accept | getOneThread | submit | fault =>
      rw [hstate] at h
      cases h

omit [DecidableEq ι] in
theorem exists_of_atGetOneThread (h : s.state.atGetOneThread = true) :
    ∃ fd, s.state = .getOneThread fd := by
  cases hstate : s.state with
  | getOneThread fd => exact ⟨fd, rfl⟩
  | outside | accept | submit | wakeUp | fault =>
      rw [hstate] at h
      cases h

/-- The step of the sub-loop `k`, if the step is one. -/
def loopSteps (k : LoopId) (s : Acceptor τ ι) :
    AcceptStep τ ι → List (LoopLabel (SubTask τ) (Option ι))
  | .submit =>
      match s.state with
      | .submit fd j => if j = k then [.submit none (.setUp fd)] else []
      | _ => []
  | .wakeUp =>
      match s.state with
      | .wakeUp j => if j = k then [.wakeUp none] else []
      | _ => []
  | .loop j l => if j = k then [l] else []
  | _ => []

theorem loops_setLoop (s : Acceptor τ ι) (j k : LoopId) (l : LoopLabel (SubTask τ) (Option ι)) :
    (s.setLoop j ((s.loops j).next l)).loops k =
      (eventLoop (SubTask τ) (Option ι)).run (s.loops k) (if j = k then [l] else []) := by
  by_cases hne : j = k
  · subst hne
    rw [if_pos rfl]
    exact Function.update_self ..
  · rw [if_neg hne]
    exact Function.update_of_ne (Ne.symm hne) ..

/-- A sub-loop runs as it does alone, with the thread of the base loop among those that use
it. -/
theorem loop_driven (k : LoopId) :
    ((acceptor τ ι).within Serving).Drives (eventLoop (SubTask τ) (Option ι))
      (fun s => s.loops k) (loopSteps k) where
  next s l := by
    cases l with
    | setSubThreadNum | start | baseLeaves | readable | accept => rfl
    | close =>
        show (s.next .close).loops k = s.loops k
        unfold Acceptor.next
        dsimp only
        split
        · rfl
        · rfl
    | getOneThread =>
        show s.getOneThread.loops k = s.loops k
        unfold Acceptor.getOneThread
        split
        · split
          · rfl
          · rfl
          · rfl
        · rfl
    | submit =>
        show (s.next .submit).loops k = _
        unfold Acceptor.next loopSteps
        dsimp only
        split
        · exact s.loops_setLoop ..
        · rfl
    | wakeUp =>
        show (s.next .wakeUp).loops k = _
        unfold Acceptor.next loopSteps
        dsimp only
        split
        · exact s.loops_setLoop ..
        · rfl
    | loop j l => exact s.loops_setLoop ..
  legal s l h := by
    obtain ⟨hs, hl⟩ := h
    have hone : ∀ (j : LoopId) (l : LoopLabel (SubTask τ) (Option ι)),
        (s.loops j).Possible l →
          (eventLoop (SubTask τ) (Option ι)).Legal (s.loops k) (if j = k then [l] else []) := by
      intro j l hj
      split
      · rename_i heq
        subst heq
        exact ⟨hj, trivial⟩
      · trivial
    cases l with
    | setSubThreadNum | start | baseLeaves | close | readable | accept | getOneThread =>
        exact trivial
    | submit =>
        rcases exists_of_atSubmit hl with ⟨fd, j, hstate⟩
        unfold loopSteps
        rw [hstate]
        refine hone j _ ⟨hs.target fd j hstate, ?_⟩
        rw [hs.waking j, hstate]
        rfl
    | wakeUp =>
        rcases exists_of_atWakeUp hl with ⟨j, hstate⟩
        unfold loopSteps
        rw [hstate]
        refine hone j _ ?_
        show ((s.loops j).threads none).isWaking = true
        rw [hs.waking j, if_pos hstate]
        rfl
    | loop j l => exact hone j l hl.1

/-- The set-ups that go to one loop. -/
def ofLoop (k : LoopId) (handed : List (LoopId × Nat)) : List Nat :=
  handed.filterMap fun p => if p.1 = k then some p.2 else none

/-- The connections that a step of a sub-loop's users pushes are those handed to that loop. -/
theorem pushed_eq_handedOut (k : LoopId) {l : AcceptStep τ ι} (hl : s.Possible l) :
    (eventLoop (SubTask τ) (Option ι)).collect
        (fun loop l => (loop.pushed l).filterMap fun m => m.task.connection?) (s.loops k)
        (loopSteps k s l) =
      ofLoop k (s.handedOut l) := by
  cases l with
  | setSubThreadNum | start | baseLeaves | close | readable | accept | getOneThread => rfl
  | submit =>
      rcases exists_of_atSubmit hl with ⟨fd, j, hstate⟩
      unfold loopSteps handedOut
      rw [hstate]
      dsimp only
      by_cases hne : j = k
      · rw [if_pos hne]
        simp [Machine.collect, EventLoop.pushed, SubTask.connection?, ofLoop, hne]
      · rw [if_neg hne]
        simp [Machine.collect, ofLoop, hne]
  | wakeUp =>
      rcases exists_of_atWakeUp hl with ⟨j, hstate⟩
      unfold loopSteps
      rw [hstate]
      dsimp only
      split
      · rfl
      · rfl
  | loop j l =>
      unfold loopSteps
      dsimp only
      split
      · have hother := hl.2
        cases l with
        | submit t task | submitAndWait t task =>
            simp [Machine.collect, EventLoop.pushed, handedOut, ofLoop, hother.2]
        | loop | poll | pollFailed | handle | stopLoop | wakeUp | resume => rfl
      · rfl

theorem loop_run {ls : List (AcceptStep τ ι)} (hlegal : (acceptor τ ι).Legal new ls) (k : LoopId) :
    ((acceptor τ ι).run new ls).setUps k =
        ofLoop k ((acceptor τ ι).collect handedOut new ls) ∧
      (((acceptor τ ι).run new ls).loops k).Awake := by
  have hwithin := Machine.Legal.within _ Serving.new (fun _ _ h hl => Serving.next h hl) hlegal
  have hdriven : ((acceptor τ ι).within Serving).Drives _ (fun s => s.loops k) (loopSteps k) :=
    loop_driven k
  obtain ⟨hall, _, hawake⟩ := EventLoop.missions_run _ (hdriven.legal_run hwithin)
  have hloop := hdriven.run new ls
  rw [Machine.run_within] at hloop
  constructor
  · unfold setUps
    rw [hloop, ofLoop, Machine.filterMap_collect]
    refine (congrArg _ hall).trans ?_
    rw [Machine.filterMap_collect]
    refine (hdriven.collect_eq _ new ls).trans ?_
    rw [Machine.collect_within]
    exact (acceptor τ ι).collect_congr (fun _ _ hl => pushed_eq_handedOut k hl) hlegal
  · rw [hloop]
    exact hawake

/-! ## The connections -/

/-- **Step lemma**: a connection that is accepted is in hand until it is submitted. -/
theorem inHand_next (h : s.Serving) {l : AcceptStep τ ι} (hl : s.Possible l) :
    s.state.inHand ++ s.acceptedFds l =
      (s.handedOut l).map Prod.snd ++ (s.next l).state.inHand := by
  cases l with
  | setSubThreadNum | start | baseLeaves | loop => exact List.append_nil _
  | close =>
      unfold Acceptor.next
      dsimp only
      rw [h.sized.close]
      exact List.append_nil _
  | readable =>
      have hstate : s.state = .outside := hl.1
      rw [hstate]
      rfl
  | accept result =>
      have hstate : s.state = .accept := hl
      rw [hstate]
      cases result with
      | ok fd => rfl
      | error e =>
          cases e with
          | eagain | ewouldblock | eintr | other => rfl
  | getOneThread =>
      rcases exists_of_atGetOneThread hl with ⟨fd, hstate⟩
      rcases h.getOneThread hstate with ⟨k, pool, _, _, _, _, heq⟩
      show _ = [].map _ ++ s.getOneThread.state.inHand
      rw [heq, hstate]
      rfl
  | submit =>
      rcases exists_of_atSubmit hl with ⟨fd, k, hstate⟩
      unfold handedOut
      rw [next_submit hstate, hstate]
      rfl
  | wakeUp =>
      rcases exists_of_atWakeUp hl with ⟨k, hstate⟩
      rw [next_wakeUp hstate, hstate]
      rfl

/-- **Every connection that is accepted is set up, on one loop, in turn.**  In every run of the
base loop's acceptor, of the sub-loops and of any threads that resize, start or close the server
or use its sub-loops: the connections accepted so far are, in this order, those whose set-up has
been submitted and the one that is about to be; none is closed at once for want of a loop.  The
set-ups of a sub-loop, run or queued, are those handed to it, each once and in the order of
acceptance; while the loop is at its poll with a task queued it is about to be woken. -/
theorem accepted_handed_out (ls : List (AcceptStep τ ι)) (hlegal : (acceptor τ ι).Legal new ls) :
    let s := (acceptor τ ι).run new ls
    let handed := (acceptor τ ι).collect handedOut new ls
    (acceptor τ ι).collect acceptedFds new ls = handed.map Prod.snd ++ s.state.inHand ∧
      (∀ k, s.setUps k = ofLoop k handed ∧
        ((s.loops k).state = .poll → (s.loops k).missions.queue ≠ [] →
          0 < (s.loops k).wakeups ∨ ∃ t, (s.loops k).Pushing t)) ∧
      ∀ f, s.state ≠ .fault f := by
  intro s handed
  refine ⟨?_, ?_, (serving_run ls hlegal).noFault⟩
  · refine (acceptor τ ι).run_invariant_history
      (I := fun ls s => (acceptor τ ι).collect acceptedFds new ls =
        ((acceptor τ ι).collect handedOut new ls).map Prod.snd ++ s.state.inHand)
      rfl ?_ ls hlegal
    intro ls l hlegal hI
    have hserving := serving_run ls (Machine.Legal.of_append _ hlegal)
    have hstep := inHand_next hserving (Machine.Legal.enabled_at _ hlegal)
    rw [Machine.collect_concat, Machine.collect_concat, hI, List.append_assoc, hstep,
      List.map_append, List.append_assoc]
    rfl
  · intro k
    obtain ⟨hsetUps, hawake⟩ := loop_run hlegal k
    refine ⟨hsetUps, fun hpoll => hawake ?_⟩
    rw [hpoll]
    rfl

/-- Two connections on two loops, with an interrupted `accept4` in between. -/
theorem accepted_handed_out_two :
    let ls : List (AcceptStep Unit Unit) :=
      [.setSubThreadNum 2, .loop 0 .loop, .loop 1 .loop, .start id true, .readable,
        .accept (.ok 7), .getOneThread, .submit, .loop 0 .loop, .wakeUp, .accept (.error .eintr),
        .accept (.ok 8), .getOneThread, .submit]
    ((acceptor Unit Unit).run new ls).setUps 0 = [7] ∧
      ((acceptor Unit Unit).run new ls).setUps 1 = [8] := by
  intro ls
  have hall := (accepted_handed_out ls (by decide)).2.1
  exact ⟨(hall 0).1, (hall 1).1⟩

/-! ## Shares -/

omit [DecidableEq ι] in
/-- The step makes the pool another one. -/
def changesPool : AcceptStep τ ι → Bool
  | .setSubThreadNum _ => true
  | .start _ _ => true
  | .close => true
  | _ => false

omit [DecidableEq ι] in
/-- What remains of the pool of `s` while only the base loop calls it, where `got` is what the
base loop has got from it. -/
structure Rotating (s : Acceptor τ ι) (got : List (Option LoopId)) (t : Acceptor τ ι) : Prop where
  serving : t.Serving
  operThreads : t.pool.operThreads = s.pool.operThreads
  num : t.pool.num = s.pool.num
  pos : t.pool.pos.toNat % s.pool.num.toNat = (s.pool.pos.toNat + got.length) % s.pool.num.toNat
  turns : got = RoundRobin.turns s.pool.operThreads s.pool.num.toNat s.pool.pos.toNat got.length
  fits : got ≠ [] → s.pool.num.toNat ≤ s.pool.operThreads.length

/-- **Step lemma.** -/
theorem Rotating.next {got : List (Option LoopId)} {t : Acceptor τ ι} (h : s.Rotating got t)
    {l : AcceptStep τ ι} (hl : t.Possible l) (hsame : changesPool l = false) :
    s.Rotating (got ++ t.chosen l) (t.next l) := by
  have hframe : (t.next l).pool = t.pool → t.chosen l = [] →
      s.Rotating (got ++ t.chosen l) (t.next l) := by
    intro hpool hchosen
    rw [hchosen, List.append_nil]
    exact ⟨h.serving.next hl, hpool ▸ h.operThreads, hpool ▸ h.num, hpool ▸ h.pos, h.turns, h.fits⟩
  cases l with
  | setSubThreadNum | start | close => cases hsame
  | baseLeaves | readable | accept | loop => exact hframe rfl rfl
  | submit =>
      rcases exists_of_atSubmit hl with ⟨fd, k, hstate⟩
      refine hframe ?_ rfl
      rw [next_submit hstate]
      rfl
  | wakeUp =>
      rcases exists_of_atWakeUp hl with ⟨k, hstate⟩
      refine hframe ?_ rfl
      rw [next_wakeUp hstate]
      rfl
  | getOneThread =>
      rcases exists_of_atGetOneThread hl with ⟨fd, hstate⟩
      rcases h.serving.getOneThread hstate with ⟨k, pool, hk, rfl, hcall, hsized, heq⟩
      have hserving := h.serving.accepting (by rw [hstate]; exact nofun)
      have hrunning := h.serving.running hserving.1 hserving.2
      have hchosen : t.chosen .getOneThread = [some k] := by
        unfold chosen
        rw [hcall]
      have hnext : t.next .getOneThread = t.getOneThread := rfl
      rw [h.num, h.pos, h.operThreads] at hk
      refine ⟨h.serving.next hl, ?_, ?_, ?_, ?_, ?_⟩
      · rw [hnext, heq]
        exact h.operThreads
      · rw [hnext, heq]
        exact h.num
      · rw [hnext, heq, hchosen]
        show ((t.pool.pos.toNat + 1) % t.pool.num.toNat : Nat) % s.pool.num.toNat = _
        rw [h.num, Nat.mod_mod, ← Nat.mod_add_mod, h.pos, Nat.mod_add_mod, List.length_append,
          Nat.add_assoc]
        rfl
      · rw [hchosen, List.length_append, List.length_singleton, RoundRobin.turns_succ, ← h.turns,
          hk]
      · intro _
        have hle := h.serving.sized.num_le_length hrunning
        rwa [h.num, h.operThreads] at hle

theorem rotating_run (hs : s.Serving) (ms : List (AcceptStep τ ι))
    (hlegal : (acceptor τ ι).Legal s ms) (hsame : ∀ l ∈ ms, changesPool l = false) :
    s.Rotating ((acceptor τ ι).collect chosen s ms) ((acceptor τ ι).run s ms) := by
  induction ms using List.reverseRecOn with
  | nil => exact ⟨hs, rfl, rfl, rfl, rfl, fun hne => absurd rfl hne⟩
  | append_singleton ms l ih =>
      have hbefore := ih (Machine.Legal.of_append _ hlegal)
        fun k hk => hsame k (List.mem_append_left _ hk)
      rw [Machine.collect_concat, Machine.run_concat]
      exact hbefore.next (Machine.Legal.enabled_at _ hlegal) (hsame l (by simp))

/-- **Connections are handed out evenly.**  While nobody resizes, starts or closes the pool, and
whatever else happens, the base loop gets each of the first `num_` loops as often as any other,
give or take one, and no other loop; so the connections of a server are spread over its loops
from wherever the cursor was left. -/
theorem handed_out_evenly (ls ms : List (AcceptStep τ ι))
    (hlegal : (acceptor τ ι).Legal new (ls ++ ms)) (hsame : ∀ l ∈ ms, changesPool l = false) :
    let s := (acceptor τ ι).run new ls
    let got := (acceptor τ ι).collect chosen s ms
    let loops := s.pool.operThreads.take s.pool.num.toNat
    (∀ r ∈ got, ∃ k ∈ loops, r = some k) ∧
      ∀ k ∈ loops, got.length / s.pool.num.toNat ≤ got.count (some k) ∧
        got.count (some k) ≤ got.length / s.pool.num.toNat + 1 := by
  intro s got loops
  have hlegal := (Machine.legal_append _ new ls ms).1 hlegal
  have hs : s.Serving := serving_run ls hlegal.1
  have h : s.Rotating got _ := rotating_run hs ms hlegal.2 hsame
  have hnum := hs.sized.num_pos
  by_cases hnone : got = []
  · rw [hnone]
    simp
  · have hfits := h.fits hnone
    constructor
    · intro r hr
      rw [h.turns] at hr
      exact RoundRobin.mem_turns hnum hfits hr
    · intro k hk
      have hbounds := RoundRobin.count_turns_bounds hs.nodup hnum hfits hk s.pool.pos.toNat
        got.length
      rwa [← h.turns] at hbounds

/-- Three connections on two loops. -/
theorem handed_out_evenly_three :
    let ls : List (AcceptStep Unit Unit) :=
      [.setSubThreadNum 2, .loop 0 .loop, .loop 1 .loop, .start id true, .readable]
    let ms : List (AcceptStep Unit Unit) :=
      [.accept (.ok 7), .getOneThread, .submit, .wakeUp, .accept (.ok 8), .getOneThread, .submit,
        .wakeUp, .accept (.ok 9), .getOneThread]
    let got := (acceptor Unit Unit).collect chosen ((acceptor Unit Unit).run new ls) ms
    got.length = 3 ∧ 1 ≤ got.count (some 1) := by
  intro ls ms got
  have heven := handed_out_evenly ls ms (by decide) (by decide)
  exact ⟨by decide, Nat.le_trans (by decide) (heven.2 1 (by decide)).1⟩

end Acceptor

end Adachi.Network
