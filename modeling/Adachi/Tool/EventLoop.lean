import Adachi.Lib.Machine
import Adachi.Lib.Mailbox
import Mathlib.Algebra.Group.Nat.Defs
import Mathlib.Logic.Function.Basic

/-!
# `adachi::tool::EventLoop`

The loop thread (`src/eventloop.cpp`) and the threads that submit tasks to it or
stop it.  A step is what one thread does between two points where another thread can
come in between: `Submit` pushes a task under the mutex and then, in a second
step, writes to the eventfd; `StopLoop` stores `quit_` and then writes to it.

`publish` stands for the thread function of `EventLoopThread` before `Loop`: the
other threads have no pointer to the loop until it is published.  A task that the
loop's own thread submits runs on the spot and is no step of its own.

## Main results

* `missions_in_order`: in every run the tasks run in the order they were pushed, each
  once, and no wake-up is lost.
-/

namespace Adachi.Tool

/-! ## States -/

/-- Where the loop thread is.  `start` is the entry of `Loop`, before its first
statement; in `handle` the list says for each active channel still to be handled
whether it is the wake-up channel. -/
inductive LoopState where
  | publish
  | start
  | check
  | poll
  | handle (active : List Bool)
  | swap
  | run
  | left
  deriving DecidableEq, Repr

/-- A call another thread has begun. -/
inductive Call where
  | submit
  | submitAndWait
  | stopLoop
  deriving DecidableEq, Repr

/-- Where another thread is: outside the loop's functions, between the first step of a
call and its `WakeUp`, or at the condition variable of `SubmitAndWait`. -/
inductive ThreadState where
  | idle
  | waking (call : Call)
  | waiting
  deriving DecidableEq, Repr

/-- Where a thread is after the `WakeUp` of a call. -/
def Call.after : Call → ThreadState
  | .submit => .idle
  | .submitAndWait => .waiting
  | .stopLoop => .idle

/-- The step of the loop thread asks nothing of the system. -/
def LoopState.canLoop : LoopState → Bool
  | .poll => false
  | .handle (_ :: _) => false
  | .left => false
  | _ => true

def LoopState.canHandle : LoopState → Bool
  | .handle (_ :: _) => true
  | _ => false

/-- From `epoll_wait` on until the next swap of `missions_`. -/
def LoopState.draining : LoopState → Bool
  | .handle _ => true
  | .swap => true
  | _ => false

def ThreadState.isWaking : ThreadState → Bool
  | .waking _ => true
  | _ => false

/-- A task, and the thread that waits for it in `SubmitAndWait`. -/
structure Mission (τ ι : Type) where
  task : τ
  waiter : Option ι
  deriving DecidableEq

/-- `done` is the flag of the last `SubmitAndWait` of each thread, and `wakeups` the
counter of the eventfd. -/
structure EventLoop (τ ι : Type) where
  state : LoopState
  quit : Bool
  missions : Mailbox (Mission τ ι)
  wakeups : Nat
  threads : ι → ThreadState
  done : ι → Bool

/-- The steps of the loop thread (`loop`, `poll`, `pollFailed`, `handle`), with what the
system calls in them return, and those of the thread `t`. -/
inductive LoopLabel (τ ι : Type) where
  | loop
  | poll (active : List Bool)
  | pollFailed (retry : Bool)
  | handle (drained : Bool)
  | submit (t : ι) (task : τ)
  | submitAndWait (t : ι) (task : τ)
  | stopLoop (t : ι)
  | wakeUp (t : ι)
  | resume (t : ι)
  deriving DecidableEq

namespace EventLoop

variable {τ ι : Type}

def new : EventLoop τ ι where
  state := .publish
  quit := false
  missions := .empty
  wakeups := 0
  threads := fun _ => .idle
  done := fun _ => false

/-! ## The loop thread -/

variable [DecidableEq ι]

/-- A task of the batch runs; the task of a `SubmitAndWait` then sets the flag. -/
def runMission (s : EventLoop τ ι) (m : Mission τ ι) : EventLoop τ ι :=
  { s with
    missions := s.missions.runNext
    done :=
      match m.waiter with
      | none => s.done
      | some t => Function.update s.done t true }

def loop (s : EventLoop τ ι) : EventLoop τ ι :=
  match s.state with
  | .publish => { s with state := .start }
  | .start => { s with state := .check, quit := false }
  | .check => { s with state := if s.quit then .left else .poll }
  | .poll => s
  | .handle [] => { s with state := .swap }
  | .handle (_ :: _) => s
  | .swap => { s with state := .run, missions := s.missions.swap }
  | .run =>
      match s.missions.batch with
      | [] => { s with state := .check, missions := s.missions.release }
      | m :: _ => s.runMission m
  | .left => s

/-- The handler of the next active channel; the one of the wake-up channel reads the
counter to zero unless its `read` fails. -/
def handle (s : EventLoop τ ι) (drained : Bool) : EventLoop τ ι :=
  match s.state with
  | .handle (wakeup :: rest) =>
      { s with
        state := .handle rest
        wakeups := if wakeup && drained then 0 else s.wakeups }
  | _ => s

/-! ## The other threads -/

def setThread (s : EventLoop τ ι) (t : ι) (state : ThreadState) : EventLoop τ ι :=
  { s with threads := Function.update s.threads t state }

/-- `missions_.emplace_back(cb)`, under the mutex. -/
def push (s : EventLoop τ ι) (m : Mission τ ι) : EventLoop τ ι :=
  { s with missions := s.missions.push m }

/-- The write to the eventfd, which fails with `EAGAIN` when the counter is full. -/
def wakeUp (s : EventLoop τ ι) : EventLoop τ ι :=
  { s with wakeups := if s.wakeups < 2 ^ 64 - 2 then s.wakeups + 1 else s.wakeups }

def next (s : EventLoop τ ι) : LoopLabel τ ι → EventLoop τ ι
  | .loop => s.loop
  | .poll active => { s with state := .handle active }
  | .pollFailed retry => { s with state := if retry then .check else .left }
  | .handle drained => s.handle drained
  | .submit t task => (s.push ⟨task, none⟩).setThread t (.waking .submit)
  | .submitAndWait t task =>
      { (s.push ⟨task, some t⟩).setThread t (.waking .submitAndWait) with
        done := Function.update s.done t false }
  | .stopLoop t => { s.setThread t (.waking .stopLoop) with quit := true }
  | .wakeUp t =>
      match s.threads t with
      | .waking call => s.wakeUp.setThread t call.after
      | _ => s
  | .resume t => s.setThread t .idle

/-- A thread outside the loop's functions that has a pointer to the loop. -/
def CanCall (s : EventLoop τ ι) (t : ι) : Prop := s.state ≠ .publish ∧ s.threads t = .idle

/-- The kernel reports the wake-up channel only while the counter is positive. -/
def Possible (s : EventLoop τ ι) : LoopLabel τ ι → Prop
  | .loop => s.state.canLoop = true
  | .poll active => s.state = .poll ∧ (true ∈ active → 0 < s.wakeups)
  | .pollFailed _ => s.state = .poll
  | .handle _ => s.state.canHandle = true
  | .submit t _ => s.CanCall t
  | .submitAndWait t _ => s.CanCall t
  | .stopLoop t => s.CanCall t
  | .wakeUp t => (s.threads t).isWaking = true
  | .resume t => s.threads t = .waiting ∧ s.done t = true

instance (s : EventLoop τ ι) (t : ι) : Decidable (s.CanCall t) :=
  inferInstanceAs (Decidable (s.state ≠ .publish ∧ s.threads t = .idle))

instance (s : EventLoop τ ι) : (l : LoopLabel τ ι) → Decidable (s.Possible l)
  | .loop => inferInstanceAs (Decidable (s.state.canLoop = true))
  | .poll active =>
      inferInstanceAs (Decidable (s.state = .poll ∧ (true ∈ active → 0 < s.wakeups)))
  | .pollFailed _ => inferInstanceAs (Decidable (s.state = .poll))
  | .handle _ => inferInstanceAs (Decidable (s.state.canHandle = true))
  | .submit t _ | .submitAndWait t _ | .stopLoop t => inferInstanceAs (Decidable (s.CanCall t))
  | .wakeUp t => inferInstanceAs (Decidable ((s.threads t).isWaking = true))
  | .resume t => inferInstanceAs (Decidable (s.threads t = .waiting ∧ s.done t = true))

/-- The task a step pushes. -/
def pushed (_ : EventLoop τ ι) : LoopLabel τ ι → List (Mission τ ι)
  | .submit _ task => [⟨task, none⟩]
  | .submitAndWait t task => [⟨task, some t⟩]
  | _ => []

end EventLoop

def eventLoop (τ ι : Type) [DecidableEq ι] : Machine (EventLoop τ ι) (LoopLabel τ ι) where
  next := EventLoop.next
  enabled := EventLoop.Possible

instance (τ ι : Type) [DecidableEq ι] (s : EventLoop τ ι) (l : LoopLabel τ ι) :
    Decidable ((eventLoop τ ι).enabled s l) :=
  inferInstanceAs (Decidable (s.Possible l))

namespace EventLoop

variable {τ ι : Type} [DecidableEq ι] {s s' : EventLoop τ ι}

/-! ## One step of the loop thread -/

theorem loop_check (h : s.state = .check) :
    s.loop = { s with state := if s.quit then .left else .poll } := by
  unfold loop
  rw [h]

theorem loop_swap (h : s.state = .swap) :
    s.loop = { s with state := .run, missions := s.missions.swap } := by
  unfold loop
  rw [h]

theorem loop_run_nil (h : s.state = .run) (hbatch : s.missions.batch = []) :
    s.loop = { s with state := .check, missions := s.missions.release } := by
  unfold loop
  rw [h]
  dsimp only
  rw [hbatch]

theorem loop_run_cons (h : s.state = .run) {m : Mission τ ι} {rest : List (Mission τ ι)}
    (hbatch : s.missions.batch = m :: rest) : s.loop = s.runMission m := by
  unfold loop
  rw [h]
  dsimp only
  rw [hbatch]

/-- Everywhere else the step moves the loop thread on, and `Loop` resets `quit_` where
it starts. -/
theorem loop_moves (hswap : s.state ≠ .swap) (hrun : s.state ≠ .run) :
    ∃ state quit, s.loop = { s with state := state, quit := quit } ∧
      (s.state ≠ .start → quit = s.quit) ∧ (state.draining = s.state.draining ∨ state = .swap) ∧
      state ≠ .run := by
  unfold loop
  cases h : s.state with
  | publish => exact ⟨_, _, rfl, fun _ => rfl, .inl rfl, LoopState.noConfusion⟩
  | start => exact ⟨_, _, rfl, fun hne => absurd rfl hne, .inl rfl, LoopState.noConfusion⟩
  | check =>
      refine ⟨_, _, rfl, fun _ => rfl, ?_, ?_⟩
      · cases s.quit with
        | true => exact .inl rfl
        | false => exact .inl rfl
      · cases s.quit with
        | true => exact LoopState.noConfusion
        | false => exact LoopState.noConfusion
  | poll => exact ⟨s.state, s.quit, rfl, fun _ => rfl, .inl (by rw [h]), hrun⟩
  | handle active =>
      cases active with
      | nil => exact ⟨_, _, rfl, fun _ => rfl, .inr rfl, LoopState.noConfusion⟩
      | cons wakeup rest =>
          exact ⟨s.state, s.quit, rfl, fun _ => rfl, .inl (by rw [h]), hrun⟩
  | swap => exact absurd h hswap
  | run => exact absurd h hrun
  | left => exact ⟨s.state, s.quit, rfl, fun _ => rfl, .inl (by rw [h]), hrun⟩

theorem setThread_self (s : EventLoop τ ι) (t : ι) (state : ThreadState) :
    (s.setThread t state).threads t = state := Function.update_self ..

/-- Only the other threads move themselves. -/
theorem loop_threads (s : EventLoop τ ι) : s.loop.threads = s.threads := by
  by_cases hswap : s.state = .swap
  · rw [loop_swap hswap]
  by_cases hrun : s.state = .run
  · cases hbatch : s.missions.batch with
    | nil => rw [loop_run_nil hrun hbatch]
    | cons m rest =>
        rw [loop_run_cons hrun hbatch]
        rfl
  · rcases loop_moves hswap hrun with ⟨state, quit, heq, _⟩
    rw [heq]

omit [DecidableEq ι] in
theorem handle_cons {wakeup : Bool} {rest : List Bool}
    (h : s.state = .handle (wakeup :: rest)) (drained : Bool) :
    s.handle drained =
      { s with
        state := .handle rest
        wakeups := if wakeup && drained then 0 else s.wakeups } := by
  unfold handle
  rw [h]

omit [DecidableEq ι] in
theorem exists_of_canHandle (h : s.state.canHandle = true) :
    ∃ wakeup rest, s.state = .handle (wakeup :: rest) := by
  cases hstate : s.state with
  | handle active =>
      cases active with
      | nil =>
          rw [hstate] at h
          cases h
      | cons wakeup rest => exact ⟨wakeup, rest, rfl⟩
  | publish | start | check | poll | swap | run | left =>
      rw [hstate] at h
      cases h

theorem next_wakeUp {t : ι} {call : Call} (h : s.threads t = .waking call) :
    s.next (.wakeUp t) = s.wakeUp.setThread t call.after := by
  unfold next
  dsimp only
  rw [h]

theorem exists_of_isWaking {state : ThreadState} (h : state.isWaking = true) :
    ∃ call, state = .waking call := by
  cases state with
  | waking call => exact ⟨call, rfl⟩
  | idle => cases h
  | waiting => cases h

/-! ## Order -/

/-- Outside of its batch the loop thread has no task left to run. -/
def BatchDone (s : EventLoop τ ι) : Prop := s.state ≠ .run → s.missions.batch = []

theorem BatchDone.next (h : s.BatchDone) {l : LoopLabel τ ι} (hl : s.Possible l) :
    (s.next l).BatchDone := by
  cases l with
  | loop =>
      change s.loop.BatchDone
      by_cases hswap : s.state = .swap
      · rw [loop_swap hswap]
        exact fun hne => absurd rfl hne
      by_cases hrun : s.state = .run
      · cases hbatch : s.missions.batch with
        | nil =>
            rw [loop_run_nil hrun hbatch]
            exact fun _ => hbatch
        | cons m rest =>
            rw [loop_run_cons hrun hbatch]
            exact fun hne => absurd hrun hne
      · rcases loop_moves hswap hrun with ⟨state, quit, heq, _, _, _⟩
        rw [heq]
        exact fun _ => h hrun
  | poll active => exact fun _ => h (by rw [hl.1]; exact LoopState.noConfusion)
  | pollFailed retry =>
      have hstate : s.state = .poll := hl
      exact fun _ => h (by rw [hstate]; exact LoopState.noConfusion)
  | handle drained =>
      rcases exists_of_canHandle hl with ⟨wakeup, rest, hstate⟩
      change (s.handle drained).BatchDone
      rw [handle_cons hstate]
      exact fun _ => h (by rw [hstate]; exact LoopState.noConfusion)
  | submit t task => exact h
  | submitAndWait t task => exact h
  | stopLoop t => exact h
  | wakeUp t =>
      rcases exists_of_isWaking hl with ⟨call, hcall⟩
      rw [next_wakeUp hcall]
      exact h
  | resume t => exact h

/-- **Step lemma**: only a push changes the list of all tasks. -/
theorem all_next (h : s.BatchDone) {l : LoopLabel τ ι} (hl : s.Possible l) :
    (s.next l).missions.all = s.missions.all ++ s.pushed l := by
  cases l with
  | loop =>
      change s.loop.missions.all = s.missions.all ++ []
      rw [List.append_nil]
      by_cases hswap : s.state = .swap
      · rw [loop_swap hswap]
        exact Mailbox.all_swap (h (by rw [hswap]; exact LoopState.noConfusion))
      by_cases hrun : s.state = .run
      · cases hbatch : s.missions.batch with
        | nil =>
            rw [loop_run_nil hrun hbatch]
            exact Mailbox.all_release ..
        | cons m rest =>
            rw [loop_run_cons hrun hbatch]
            exact Mailbox.all_runNext ..
      · rcases loop_moves hswap hrun with ⟨state, quit, heq, _, _, _⟩
        rw [heq]
  | poll active => exact (List.append_nil _).symm
  | pollFailed retry => exact (List.append_nil _).symm
  | handle drained =>
      rcases exists_of_canHandle hl with ⟨wakeup, rest, hstate⟩
      change (s.handle drained).missions.all = s.missions.all ++ []
      rw [handle_cons hstate, List.append_nil]
  | submit t task => exact Mailbox.all_push ..
  | submitAndWait t task => exact Mailbox.all_push ..
  | stopLoop t => exact (List.append_nil _).symm
  | wakeUp t =>
      rcases exists_of_isWaking hl with ⟨call, hcall⟩
      rw [next_wakeUp hcall]
      exact (List.append_nil _).symm
  | resume t => exact (List.append_nil _).symm

/-! ## Wake-ups -/

/-- The thread has pushed a task and not yet written to the eventfd. -/
def Pushing (s : EventLoop τ ι) (t : ι) : Prop :=
  s.threads t = .waking .submit ∨ s.threads t = .waking .submitAndWait

/-- Unless the loop thread is on its way to the swap, a queued task keeps the counter
positive or will make it so. -/
def Awake (s : EventLoop τ ι) : Prop :=
  s.state.draining = false → s.missions.queue ≠ [] → 0 < s.wakeups ∨ ∃ t, s.Pushing t

omit [DecidableEq ι] in
theorem Awake.frame (h : s.Awake) (hdraining : s'.state.draining = false →
    s.state.draining = false) (hqueue : s'.missions.queue = s.missions.queue)
    (hwakeups : s'.wakeups = s.wakeups) (hpushing : ∀ t, s.Pushing t → s'.Pushing t) :
    s'.Awake := by
  intro hstate hne
  rw [hqueue] at hne
  rw [hwakeups]
  rcases h (hdraining hstate) hne with hpos | ⟨t, ht⟩
  · exact .inl hpos
  · exact .inr ⟨t, hpushing t ht⟩

omit [DecidableEq ι] in
theorem wakeUp_pos (s : EventLoop τ ι) : 0 < s.wakeUp.wakeups := by
  unfold wakeUp
  dsimp only
  split
  · exact Nat.succ_pos _
  · omega

/-- A thread that starts or ends a call is not the one that has pushed. -/
theorem Pushing.setThread {t u : ι} {state : ThreadState} (h : s.Pushing u)
    (ht : ¬s.Pushing t) : (s.setThread t state).Pushing u := by
  have hne : u ≠ t := by
    intro heq
    rw [heq] at h
    exact ht h
  have hsame : (s.setThread t state).threads u = s.threads u := Function.update_of_ne hne ..
  unfold Pushing
  rwa [hsame]

omit [DecidableEq ι] in
theorem not_pushing {t : ι} {state : ThreadState} (h : s.threads t = state)
    (hstate : state.isWaking = false) : ¬s.Pushing t := by
  intro hpushing
  rcases hpushing with heq | heq
  · rw [← h, heq] at hstate
    cases hstate
  · rw [← h, heq] at hstate
    cases hstate

theorem Awake.next (h : s.Awake) {l : LoopLabel τ ι} (hl : s.Possible l) :
    (s.next l).Awake := by
  cases l with
  | loop =>
      change s.loop.Awake
      by_cases hswap : s.state = .swap
      · rw [loop_swap hswap]
        exact fun _ hne => absurd rfl hne
      by_cases hrun : s.state = .run
      · have hdraining : s.state.draining = false := by
          rw [hrun]
          rfl
        cases hbatch : s.missions.batch with
        | nil =>
            rw [loop_run_nil hrun hbatch]
            exact h.frame (fun _ => hdraining) rfl rfl fun _ ht => ht
        | cons m rest =>
            rw [loop_run_cons hrun hbatch]
            exact h.frame (fun _ => hdraining) (Mailbox.queue_runNext _) rfl fun _ ht => ht
      · rcases loop_moves hswap hrun with ⟨state, quit, heq, _, hdraining, _⟩
        rw [heq]
        rcases hdraining with hsame | hswap'
        · exact h.frame (fun hstate => hsame ▸ hstate) rfl rfl fun _ ht => ht
        · intro hstate
          rw [hswap'] at hstate
          cases hstate
  | poll active =>
      intro hstate
      cases hstate
  | pollFailed retry =>
      have hpoll : s.state = .poll := hl
      refine h.frame (fun _ => ?_) rfl rfl fun _ ht => ht
      rw [hpoll]
      rfl
  | handle drained =>
      rcases exists_of_canHandle hl with ⟨wakeup, rest, hstate⟩
      change (s.handle drained).Awake
      rw [handle_cons hstate]
      intro hdraining
      cases hdraining
  | submit t task => exact fun _ _ => .inr ⟨t, .inl (Function.update_self ..)⟩
  | submitAndWait t task => exact fun _ _ => .inr ⟨t, .inr (Function.update_self ..)⟩
  | stopLoop t =>
      exact h.frame id rfl rfl fun u hu => Pushing.setThread hu (not_pushing hl.2 rfl)
  | wakeUp t =>
      rcases exists_of_isWaking hl with ⟨call, hcall⟩
      rw [next_wakeUp hcall]
      exact fun _ _ => .inl (wakeUp_pos s)
  | resume t =>
      exact h.frame id rfl rfl fun u hu => Pushing.setThread hu (not_pushing hl.1 rfl)

/-! ## Runs -/

/-- **Run lemma.** -/
theorem missions_run (ls : List (LoopLabel τ ι)) (hlegal : (eventLoop τ ι).Legal new ls) :
    let s := (eventLoop τ ι).run new ls
    s.missions.all = (eventLoop τ ι).collect pushed new ls ∧ s.BatchDone ∧ s.Awake := by
  refine (eventLoop τ ι).run_invariant_history
    (I := fun ls s => s.missions.all = (eventLoop τ ι).collect pushed new ls ∧
      s.BatchDone ∧ s.Awake) ?_ ?_ ls hlegal
  · exact ⟨rfl, fun _ => rfl, fun _ hne => absurd rfl hne⟩
  · intro ls l hlegal hI
    have hl := Machine.Legal.enabled_at _ hlegal
    rcases hI with ⟨hall, hbatch, hawake⟩
    refine ⟨?_, hbatch.next hl, hawake.next hl⟩
    rw [Machine.collect_concat, ← hall]
    exact all_next hbatch hl

/-- **Tasks run in order, and no wake-up is lost.**  In every run of the loop thread and
any other threads the tasks already run, the rest of the batch and `missions_` are
together the tasks pushed, in the order they were pushed.  While the loop thread is
at its poll and a task is queued, the eventfd counter is positive, or a thread that
has pushed has still to write to it. -/
theorem missions_in_order (ls : List (LoopLabel τ ι))
    (hlegal : (eventLoop τ ι).Legal new ls) :
    let s := (eventLoop τ ι).run new ls
    (s.missions.released ++ s.missions.ran) ++ s.missions.batch ++ s.missions.queue =
        (eventLoop τ ι).collect pushed new ls ∧
      (s.state = .poll → s.missions.queue ≠ [] → 0 < s.wakeups ∨ ∃ t, s.Pushing t) := by
  intro s
  rcases missions_run ls hlegal with ⟨hall, _, hawake⟩
  constructor
  · rw [← hall]
    simp [Mailbox.all, s]
  · intro hpoll
    refine hawake ?_
    rw [hpoll]
    rfl

end EventLoop

/-- Two threads push while the loop thread handles the wake-up of the first. -/
theorem missions_in_order_two :
    let ls : List (LoopLabel Nat Bool) :=
      [.loop, .loop, .loop, .submit false 1, .wakeUp false, .poll [true], .handle true,
        .submit true 2, .loop, .loop]
    ((eventLoop Nat Bool).run .new ls).missions.batch = [⟨1, none⟩, ⟨2, none⟩] := by
  intro ls
  have horder := (EventLoop.missions_in_order ls (by decide)).1
  exact horder

end Adachi.Tool
