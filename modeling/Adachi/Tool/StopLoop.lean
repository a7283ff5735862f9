import Adachi.Tool.EventLoop

/-!
# Stopping a loop

`StopLoop` stores `quit_` and wakes the loop thread, which leaves `Loop` at its next
check.  Two things can go wrong.

`Loop` itself stores `false` into `quit_` when it starts, and `EventLoopThread`
publishes the loop before that: a stop request that comes in between is lost.

A task can be pushed after the last swap of `missions_`, while the loop thread runs
the batch or goes to its check.  If `quit_` is set by then, or gets set before the
check, the loop thread leaves without running the task, and a thread that waits for
it in `SubmitAndWait` waits for ever.  So does one that calls `SubmitAndWait` after
the loop thread has left, as a sub-loop of a `TcpServer` can.

## Main results

* `stop_kept_iff`: which stop requests are kept.
* `served_iff`: in which runs every task and every waiting thread has been served when
  the loop thread has left.
-/

namespace Adachi.Tool

/-- A step of the loop thread. -/
def LoopLabel.ofLoop {τ ι : Type} : LoopLabel τ ι → Bool
  | .loop => true
  | .poll _ => true
  | .pollFailed _ => true
  | .handle _ => true
  | _ => false

/-- The thread is in `SubmitAndWait`. -/
def ThreadState.inWait : ThreadState → Bool
  | .waking .submitAndWait => true
  | .waiting => true
  | _ => false

namespace EventLoop

variable {τ ι : Type} [DecidableEq ι] {s : EventLoop τ ι}

/-! ## A stop request -/

/-- `Loop` has started and `quit_` is set. -/
structure Stopping (s : EventLoop τ ι) : Prop where
  published : s.state ≠ .publish
  started : s.state ≠ .start
  quit : s.quit = true

omit [DecidableEq ι] in
theorem Stopping.frame {s' : EventLoop τ ι} (h : s.Stopping) (hstate : s'.state = s.state)
    (hquit : s'.quit = s.quit) : s'.Stopping where
  published := hstate ▸ h.published
  started := hstate ▸ h.started
  quit := hquit.trans h.quit

theorem Stopping.loop (h : s.Stopping) : s.loop.Stopping := by
  unfold EventLoop.loop
  cases hstate : s.state with
  | publish => exact absurd hstate h.published
  | start => exact absurd hstate h.started
  | check =>
      dsimp only
      rw [h.quit]
      exact ⟨LoopState.noConfusion, LoopState.noConfusion, rfl⟩
  | poll => exact h
  | handle active =>
      cases active with
      | nil => exact ⟨LoopState.noConfusion, LoopState.noConfusion, h.quit⟩
      | cons wakeup rest => exact h
  | swap => exact ⟨LoopState.noConfusion, LoopState.noConfusion, h.quit⟩
  | run =>
      dsimp only
      cases s.missions.batch with
      | nil => exact ⟨LoopState.noConfusion, LoopState.noConfusion, h.quit⟩
      | cons m rest => exact h.frame rfl rfl
  | left => exact h

/-- **Step lemma**: no step takes a stop request back once `Loop` has started. -/
theorem Stopping.next (h : s.Stopping) {l : LoopLabel τ ι} (hl : s.Possible l) :
    (s.next l).Stopping := by
  cases l with
  | loop => exact h.loop
  | poll active => exact ⟨LoopState.noConfusion, LoopState.noConfusion, h.quit⟩
  | pollFailed retry =>
      cases retry with
      | true => exact ⟨LoopState.noConfusion, LoopState.noConfusion, h.quit⟩
      | false => exact ⟨LoopState.noConfusion, LoopState.noConfusion, h.quit⟩
  | handle drained =>
      rcases exists_of_canHandle hl with ⟨wakeup, rest, hstate⟩
      change (s.handle drained).Stopping
      rw [handle_cons hstate]
      exact ⟨LoopState.noConfusion, LoopState.noConfusion, h.quit⟩
  | submit t task => exact h.frame rfl rfl
  | submitAndWait t task => exact h.frame rfl rfl
  | stopLoop t => exact h.frame rfl h.quit.symm
  | wakeUp t =>
      rcases exists_of_isWaking hl with ⟨call, hcall⟩
      rw [next_wakeUp hcall]
      exact h.frame rfl rfl
  | resume t => exact h.frame rfl rfl

theorem Stopping.run (h : s.Stopping) (ls : List (LoopLabel τ ι))
    (hlegal : (eventLoop τ ι).Legal s ls) : ((eventLoop τ ι).run s ls).Stopping :=
  (eventLoop τ ι).run_invariant h (fun _ _ h hl => h.next hl) ls hlegal

/-! ### The loop thread can leave -/

/-- Steps of the loop thread alone lead it out of `Loop`. -/
def CanLeave (s : EventLoop τ ι) : Prop :=
  ∃ rest, (eventLoop τ ι).Legal s rest ∧ (∀ l ∈ rest, l.ofLoop = true) ∧
    ((eventLoop τ ι).run s rest).state = .left

theorem CanLeave.step {l : LoopLabel τ ι} (h : (s.next l).CanLeave) (hl : s.Possible l)
    (hloop : l.ofLoop = true) : s.CanLeave := by
  rcases h with ⟨rest, hlegal, hall, hleft⟩
  exact ⟨l :: rest, ⟨hl, hlegal⟩, List.forall_mem_cons.2 ⟨hloop, hall⟩, hleft⟩

theorem canLeave_check (h : s.Stopping) (hstate : s.state = .check) : s.CanLeave := by
  apply CanLeave.step (l := .loop) _ (by rw [Possible, hstate]; rfl) rfl
  refine ⟨[], trivial, List.forall_mem_nil _, ?_⟩
  change s.loop.state = .left
  rw [loop_check hstate, h.quit]
  rfl

theorem canLeave_run (h : s.Stopping) (hstate : s.state = .run) : s.CanLeave := by
  have hl : s.Possible .loop := by
    rw [Possible, hstate]
    rfl
  induction hbatch : s.missions.batch generalizing s with
  | nil =>
      apply CanLeave.step (l := .loop) _ hl rfl
      have hnext : s.next .loop = { s with state := .check, missions := s.missions.release } :=
        loop_run_nil hstate hbatch
      exact canLeave_check (h.next hl) (by rw [hnext])
  | cons m rest ih =>
      apply CanLeave.step (l := .loop) _ hl rfl
      have hnext : s.next .loop = s.runMission m := loop_run_cons hstate hbatch
      have hstate' : (s.next .loop).state = .run := by
        rw [hnext]
        exact hstate
      apply ih (h.next hl) hstate'
      · rw [Possible, hstate']
        rfl
      · rw [hnext]
        change s.missions.runNext.batch = rest
        rw [Mailbox.runNext_cons hbatch]

theorem canLeave_handle (h : s.Stopping) {active : List Bool}
    (hstate : s.state = .handle active) : s.CanLeave := by
  induction active generalizing s with
  | nil =>
      have hl : s.Possible .loop := by
        rw [Possible, hstate]
        rfl
      have hswap : (s.next .loop).state = .swap := by
        change s.loop.state = .swap
        unfold EventLoop.loop
        rw [hstate]
      have hl' : (s.next .loop).Possible .loop := by
        rw [Possible, hswap]
        rfl
      apply CanLeave.step (l := .loop) _ hl rfl
      apply CanLeave.step (l := .loop) _ hl' rfl
      apply canLeave_run ((h.next hl).next hl')
      change (s.next .loop).loop.state = .run
      rw [loop_swap hswap]
  | cons wakeup rest ih =>
      have hl : s.Possible (.handle false) := by
        rw [Possible, hstate]
        rfl
      apply CanLeave.step (l := .handle false) _ hl rfl
      apply ih (h.next hl)
      change (s.handle false).state = .handle rest
      rw [handle_cons hstate]

/-- A loop thread that is to stop is never stuck. -/
theorem Stopping.canLeave (h : s.Stopping) : s.CanLeave := by
  cases hstate : s.state with
  | publish => exact absurd hstate h.published
  | start => exact absurd hstate h.started
  | check => exact canLeave_check h hstate
  | poll =>
      have hl : s.Possible (.poll []) := by
        refine ⟨hstate, ?_⟩
        intro hmem
        cases hmem
      apply CanLeave.step (l := .poll []) _ hl rfl
      exact canLeave_handle (h.next hl) rfl
  | handle active => exact canLeave_handle h hstate
  | swap =>
      have hl : s.Possible .loop := by
        rw [Possible, hstate]
        rfl
      apply CanLeave.step (l := .loop) _ hl rfl
      apply canLeave_run (h.next hl)
      change s.loop.state = .run
      rw [loop_swap hstate]
  | run => exact canLeave_run h hstate
  | left => exact ⟨[], trivial, List.forall_mem_nil _, hstate⟩

/-- The stop request stored in `s` is never lost: `quit_` stays set, the loop thread
leaves at its next check, and it can always get there by itself. -/
structure StopKept (s : EventLoop τ ι) : Prop where
  quit : ∀ ls, (eventLoop τ ι).Legal s ls → ((eventLoop τ ι).run s ls).quit = true
  last : ∀ ls, (eventLoop τ ι).Legal s ls → ((eventLoop τ ι).run s ls).state = .check →
    ((eventLoop τ ι).run s ls).loop.state = .left
  leaves : ∀ ls, (eventLoop τ ι).Legal s ls → ((eventLoop τ ι).run s ls).CanLeave

theorem Stopping.stopKept (h : s.Stopping) : s.StopKept where
  quit ls hlegal := (h.run ls hlegal).quit
  last ls hlegal hcheck := by
    rw [loop_check hcheck, (h.run ls hlegal).quit]
    rfl
  leaves ls hlegal := (h.run ls hlegal).canLeave

/-- **Which stop requests are kept.**  In every run a `StopLoop` on the published loop is
kept exactly when the loop thread has passed the first statement of `Loop`. -/
theorem stop_kept_iff (ls : List (LoopLabel τ ι)) (t : ι)
    (hlegal : (eventLoop τ ι).Legal new (ls ++ [.stopLoop t])) :
    ((eventLoop τ ι).run new (ls ++ [.stopLoop t])).StopKept ↔
      ((eventLoop τ ι).run new ls).state ≠ .start := by
  have hcall : ((eventLoop τ ι).run new ls).CanCall t := Machine.Legal.enabled_at _ hlegal
  rw [Machine.run_concat]
  constructor
  · intro hkept hstart
    have hquit := hkept.quit [.loop] ⟨by
      change LoopState.canLoop ((eventLoop τ ι).run new ls).state = true
      rw [hstart]
      rfl, trivial⟩
    revert hquit
    change EventLoop.quit (EventLoop.loop (EventLoop.next _ (.stopLoop t))) = true → False
    unfold EventLoop.loop EventLoop.next
    dsimp only [setThread]
    rw [hstart]
    exact Bool.noConfusion
  · intro hstart
    have hstopping : (((eventLoop τ ι).run new ls).next (.stopLoop t)).Stopping :=
      ⟨hcall.1, hstart, rfl⟩
    exact hstopping.stopKept

/-! ## Tasks and waiting threads -/

/-- The next check of `quit_` comes before the next swap of `missions_`. -/
def CheckNext (s : EventLoop τ ι) : Prop := s.state = .run ∨ s.state = .check

/-- The thread is in a `SubmitAndWait` whose task has not run. -/
def Unserved (s : EventLoop τ ι) (t : ι) : Prop :=
  (s.threads t).inWait = true ∧ s.done t = false

instance (s : EventLoop τ ι) (t : ι) : Decidable (s.Unserved t) :=
  inferInstanceAs (Decidable ((s.threads t).inWait = true ∧ s.done t = false))

/-- The tasks pushed after the loop thread has left. -/
def late (s : EventLoop τ ι) (l : LoopLabel τ ι) : List (Mission τ ι) :=
  if s.state = .left then s.pushed l else []

/-- Before a check that comes before the next swap no task is pushed once `quit_` is set,
and `quit_` is not stored with a task queued; `epoll_wait` does not fail with a task
queued, unless it is retried and `quit_` is not set; and nobody calls `SubmitAndWait` on
a loop that has ended. -/
def Timely (s : EventLoop τ ι) : LoopLabel τ ι → Prop
  | .submit _ _ => s.CheckNext → s.quit = false
  | .submitAndWait _ _ => (s.CheckNext → s.quit = false) ∧ s.state ≠ .left
  | .stopLoop _ => s.CheckNext → s.missions.queue = []
  | .pollFailed retry => (retry = true → s.quit = true) → s.missions.queue = []
  | _ => True

instance (s : EventLoop τ ι) : Decidable s.CheckNext :=
  inferInstanceAs (Decidable (s.state = .run ∨ s.state = .check))

instance [DecidableEq τ] (s : EventLoop τ ι) : (l : LoopLabel τ ι) → Decidable (s.Timely l)
  | .submit _ _ => inferInstanceAs (Decidable (s.CheckNext → s.quit = false))
  | .submitAndWait _ _ =>
      inferInstanceAs (Decidable ((s.CheckNext → s.quit = false) ∧ s.state ≠ .left))
  | .stopLoop _ => inferInstanceAs (Decidable (s.CheckNext → s.missions.queue = []))
  | .pollFailed retry =>
      inferInstanceAs (Decidable ((retry = true → s.quit = true) → s.missions.queue = []))
  | .loop | .poll _ | .handle _ | .wakeUp _ | .resume _ => inferInstanceAs (Decidable True)

/-- When the loop thread has left, every task pushed before has run, and no thread
waits for one that has not. -/
structure Served (ls : List (LoopLabel τ ι)) : Prop where
  queue : ((eventLoop τ ι).run new ls).missions.queue = (eventLoop τ ι).collect late new ls
  waiters : ∀ t, ¬((eventLoop τ ι).run new ls).Unserved t

/-! ### A waiting thread's task is still there -/

/-- The task of every waiting thread is in the batch or in the queue. -/
def Waits (s : EventLoop τ ι) : Prop :=
  ∀ t, s.Unserved t → ∃ m ∈ s.missions.batch ++ s.missions.queue, m.waiter = some t

omit [DecidableEq ι] in
theorem Waits.frame {s' : EventLoop τ ι} (h : s.Waits)
    (hunserved : ∀ t, s'.Unserved t → s.Unserved t)
    (hmissions : ∀ m ∈ s.missions.batch ++ s.missions.queue,
      m ∈ s'.missions.batch ++ s'.missions.queue) : s'.Waits := by
  intro t ht
  rcases h t (hunserved t ht) with ⟨m, hm, hwaiter⟩
  exact ⟨m, hmissions m hm, hwaiter⟩

theorem unserved_setThread {t u : ι} {state : ThreadState} (hne : u ≠ t) :
    (s.setThread t state).Unserved u ↔ s.Unserved u := by
  have hsame : (s.setThread t state).threads u = s.threads u := Function.update_of_ne hne ..
  unfold Unserved
  rw [hsame]
  rfl

theorem unserved_of_setThread {t u : ι} {state : ThreadState} (hstate : state.inWait = false)
    (h : (s.setThread t state).Unserved u) : s.Unserved u := by
  by_cases hne : u = t
  · have hself : (s.setThread t state).threads u = state := by
      rw [hne]
      exact Function.update_self ..
    have hwait := h.1
    rw [hself, hstate] at hwait
    cases hwait
  · exact (unserved_setThread hne).1 h

/-- `WakeUp` leaves a thread in its `SubmitAndWait`. -/
theorem unserved_wakeUp {t u : ι} {call : Call} (hcall : s.threads t = .waking call) :
    (s.wakeUp.setThread t call.after).Unserved u ↔ s.Unserved u := by
  by_cases hne : u = t
  · have hself : (s.wakeUp.setThread t call.after).threads u = call.after := by
      rw [hne]
      exact Function.update_self ..
    have hsame : call.after.inWait = (ThreadState.waking call).inWait := by
      cases call with
      | submit => rfl
      | submitAndWait => rfl
      | stopLoop => rfl
    unfold Unserved
    rw [hself, hsame, hne, hcall]
    rfl
  · exact unserved_setThread hne

theorem unserved_submitAndWait {t u : ι} (hne : u ≠ t) (task : τ) :
    (s.next (.submitAndWait t task)).Unserved u ↔ s.Unserved u := by
  unfold Unserved EventLoop.next
  dsimp only [setThread, push]
  rw [Function.update_of_ne hne, Function.update_of_ne hne]

theorem unserved_self (t : ι) (task : τ) : (s.next (.submitAndWait t task)).Unserved t := by
  unfold Unserved EventLoop.next
  dsimp only [setThread]
  rw [Function.update_self, Function.update_self]
  exact ⟨rfl, rfl⟩

omit [DecidableEq ι] in
theorem mem_push {m n : Mission τ ι} (h : m ∈ s.missions.batch ++ s.missions.queue) :
    m ∈ s.missions.batch ++ (s.missions.push n).queue := by
  rcases List.mem_append.1 h with hmem | hmem
  · exact List.mem_append_left _ hmem
  · exact List.mem_append_right _ (List.mem_append_left _ hmem)

theorem Waits.loop (h : s.Waits) (hbatch : s.BatchDone) : s.loop.Waits := by
  by_cases hswap : s.state = .swap
  · have hempty := hbatch (by rw [hswap]; exact LoopState.noConfusion)
    rw [loop_swap hswap]
    refine h.frame (fun t ht => ht) ?_
    intro m hm
    rw [hempty, List.nil_append] at hm
    exact List.mem_append_left _ hm
  by_cases hrun : s.state = .run
  · cases hnext : s.missions.batch with
    | nil =>
        rw [loop_run_nil hrun hnext]
        exact h.frame (fun t ht => ht) fun m hm => hm
    | cons m rest =>
        rw [loop_run_cons hrun hnext]
        intro t ht
        have hmissions : s.missions.runNext.batch = rest := by
          rw [Mailbox.runNext_cons hnext]
        change ∃ n ∈ s.missions.runNext.batch ++ s.missions.runNext.queue, n.waiter = some t
        rw [hmissions, Mailbox.queue_runNext]
        have hdone : m.waiter ≠ some t ∧ s.done t = false := by
          have hflag := ht.2
          unfold runMission at hflag
          dsimp only at hflag
          cases hwaiter : m.waiter with
          | none =>
              rw [hwaiter] at hflag
              exact ⟨(Option.some_ne_none t).symm, hflag⟩
          | some u =>
              rw [hwaiter] at hflag
              dsimp only at hflag
              by_cases hu : u = t
              · rw [hu, Function.update_self] at hflag
                cases hflag
              · rw [Function.update_of_ne (Ne.symm hu)] at hflag
                exact ⟨fun heq => hu (Option.some_inj.1 heq), hflag⟩
        rcases h t ⟨ht.1, hdone.2⟩ with ⟨n, hn, hwaiter⟩
        refine ⟨n, ?_, hwaiter⟩
        rw [hnext] at hn
        rcases List.mem_cons.1 hn with heq | hmem
        · exact absurd (heq ▸ hwaiter) hdone.1
        · exact hmem
  · rcases loop_moves hswap hrun with ⟨state, quit, heq, _, _, _⟩
    rw [heq]
    exact h.frame (fun t ht => ht) fun m hm => hm

theorem Waits.next (h : s.Waits) (hbatch : s.BatchDone) {l : LoopLabel τ ι}
    (hl : s.Possible l) : (s.next l).Waits := by
  cases l with
  | loop => exact h.loop hbatch
  | poll active => exact h.frame (fun t ht => ht) fun m hm => hm
  | pollFailed retry => exact h.frame (fun t ht => ht) fun m hm => hm
  | handle drained =>
      rcases exists_of_canHandle hl with ⟨wakeup, rest, hstate⟩
      change (s.handle drained).Waits
      rw [handle_cons hstate]
      exact h.frame (fun t ht => ht) fun m hm => hm
  | submit t task =>
      refine h.frame (fun u hu => unserved_of_setThread (s := s.push ⟨task, none⟩) rfl hu) ?_
      exact fun m hm => mem_push hm
  | submitAndWait t task =>
      intro u hu
      by_cases hne : u = t
      · refine ⟨⟨task, some t⟩, ?_, by rw [hne]⟩
        exact List.mem_append_right _ (List.mem_append_right _ (List.mem_singleton_self _))
      · rcases h u ((unserved_submitAndWait hne task).1 hu) with ⟨m, hm, hwaiter⟩
        exact ⟨m, mem_push hm, hwaiter⟩
  | stopLoop t =>
      exact h.frame (fun u hu => unserved_of_setThread (s := { s with quit := true }) rfl hu)
        fun m hm => hm
  | wakeUp t =>
      rcases exists_of_isWaking hl with ⟨call, hcall⟩
      rw [next_wakeUp hcall]
      exact h.frame (fun u hu => (unserved_wakeUp hcall).1 hu) fun m hm => hm
  | resume t =>
      exact h.frame (fun u hu => unserved_of_setThread rfl hu) fun m hm => hm

/-! ### Runs that serve every task -/

/-- What holds as long as every step is timely; `lateTasks` are the tasks pushed so far
to a loop that has ended. -/
structure Serving (lateTasks : List (Mission τ ι)) (s : EventLoop τ ι) : Prop where
  check : s.CheckNext → s.quit = true → s.missions.queue = []
  queue : s.state = .left → s.missions.queue = lateTasks
  waiters : s.state = .left → ∀ t, ¬s.Unserved t

/-- What holds in every run. -/
structure Kept (lateTasks : List (Mission τ ι)) (s : EventLoop τ ι) : Prop where
  batch : s.BatchDone
  waits : s.Waits
  late : s.state ≠ .left → lateTasks = []

variable {lateTasks : List (Mission τ ι)}

omit [DecidableEq ι] in
theorem Serving.frame {s' : EventLoop τ ι} (h : s.Serving lateTasks)
    (hstate : s'.state = s.state) (hquit : s'.quit = s.quit)
    (hqueue : s'.missions.queue = s.missions.queue)
    (hunserved : ∀ t, s'.Unserved t → s.Unserved t) : s'.Serving lateTasks where
  check := by
    unfold CheckNext
    rw [hstate, hquit, hqueue]
    exact h.check
  queue := by
    rw [hstate, hqueue]
    exact h.queue
  waiters := by
    rw [hstate]
    exact fun hleft t ht => h.waiters hleft t (hunserved t ht)

omit [DecidableEq ι] in
/-- Before the end only the next check matters. -/
theorem serving_of_ne (hleft : s.state ≠ .left)
    (hcheck : s.CheckNext → s.quit = true → s.missions.queue = []) :
    s.Serving lateTasks where
  check := hcheck
  queue := fun heq => absurd heq hleft
  waiters := fun heq => absurd heq hleft

omit [DecidableEq ι] in
/-- In a state that is neither before a check nor the end. -/
theorem serving_of_state (hrun : s.state ≠ .run) (hcheck : s.state ≠ .check)
    (hleft : s.state ≠ .left) : s.Serving lateTasks := by
  apply serving_of_ne hleft
  intro hnext
  rcases hnext with heq | heq
  · exact absurd heq hrun
  · exact absurd heq hcheck

omit [DecidableEq ι] in
/-- Nothing is left behind when the loop thread leaves with `missions_` empty. -/
theorem Kept.waiters (h : s.Kept lateTasks) (hrun : s.state ≠ .run)
    (hqueue : s.missions.queue = []) (t : ι) : ¬s.Unserved t := by
  intro ht
  rcases h.waits t ht with ⟨m, hm, _⟩
  rw [h.batch hrun, hqueue] at hm
  cases hm

omit [DecidableEq ι] in
/-- The loop thread leaves with `missions_` empty. -/
theorem Kept.serving_left (h : s.Kept lateTasks) (hrun : s.state ≠ .run)
    (hleft : s.state ≠ .left) (hqueue : s.missions.queue = []) :
    Serving lateTasks { s with state := .left } where
  check _ _ := hqueue
  queue _ := by
    rw [h.late hleft]
    exact hqueue
  waiters _ := h.waiters hrun hqueue

theorem Serving.loop (h : s.Serving lateTasks) (hk : s.Kept lateTasks)
    (hl : s.state.canLoop = true) : s.loop.Serving lateTasks := by
  cases hstate : s.state with
  | publish =>
      unfold EventLoop.loop
      rw [hstate]
      exact serving_of_state LoopState.noConfusion LoopState.noConfusion LoopState.noConfusion
  | start =>
      unfold EventLoop.loop
      rw [hstate]
      apply serving_of_ne LoopState.noConfusion
      intro _ hquit
      cases hquit
  | check =>
      rw [loop_check hstate]
      cases hquit : s.quit with
      | true =>
          have hleft := hk.serving_left (by rw [hstate]; exact LoopState.noConfusion)
            (by rw [hstate]; exact LoopState.noConfusion) (h.check (.inr hstate) hquit)
          rw [hquit] at hleft
          exact hleft
      | false =>
          exact serving_of_state LoopState.noConfusion LoopState.noConfusion
            LoopState.noConfusion
  | handle active =>
      cases active with
      | nil =>
          unfold EventLoop.loop
          rw [hstate]
          exact serving_of_state LoopState.noConfusion LoopState.noConfusion
            LoopState.noConfusion
      | cons wakeup rest =>
          rw [hstate] at hl
          cases hl
  | swap =>
      rw [loop_swap hstate]
      exact serving_of_ne LoopState.noConfusion fun _ _ => rfl
  | run =>
      cases hbatch : s.missions.batch with
      | nil =>
          rw [loop_run_nil hstate hbatch]
          exact serving_of_ne LoopState.noConfusion fun _ => h.check (.inl hstate)
      | cons m rest =>
          rw [loop_run_cons hstate hbatch]
          apply serving_of_ne
          · intro hleft
            exact absurd (hstate.symm.trans hleft) LoopState.noConfusion
          · intro _ hquit
            exact (Mailbox.queue_runNext _).trans (h.check (.inl hstate) hquit)
  | poll | left =>
      rw [hstate] at hl
      cases hl

omit [DecidableEq ι] in
theorem late_of_ne (hleft : s.state ≠ .left) (l : LoopLabel τ ι) : s.late l = [] := if_neg hleft

omit [DecidableEq ι] in
theorem late_nil {l : LoopLabel τ ι} (hl : s.pushed l = []) : s.late l = [] := by
  unfold late
  rw [hl, ite_self]

/-- **Step lemma** for a timely step. -/
theorem Serving.next (h : s.Serving lateTasks) (hk : s.Kept lateTasks) {l : LoopLabel τ ι}
    (hl : s.Possible l) (htimely : s.Timely l) :
    (s.next l).Serving (lateTasks ++ s.late l) := by
  cases l with
  | loop =>
      rw [late_nil rfl, List.append_nil]
      exact h.loop hk hl
  | poll active =>
      rw [late_nil rfl, List.append_nil]
      exact serving_of_state LoopState.noConfusion LoopState.noConfusion LoopState.noConfusion
  | pollFailed retry =>
      have hpoll : s.state = .poll := hl
      rw [late_nil rfl, List.append_nil]
      cases retry with
      | true =>
          exact serving_of_ne LoopState.noConfusion fun _ hquit => htimely fun _ => hquit
      | false =>
          exact hk.serving_left (by rw [hpoll]; exact LoopState.noConfusion)
            (by rw [hpoll]; exact LoopState.noConfusion) (htimely Bool.noConfusion)
  | handle drained =>
      rcases exists_of_canHandle hl with ⟨wakeup, rest, hstate⟩
      rw [late_nil rfl, List.append_nil]
      change (s.handle drained).Serving lateTasks
      rw [handle_cons hstate]
      exact serving_of_state LoopState.noConfusion LoopState.noConfusion LoopState.noConfusion
  | submit t task =>
      refine ⟨?_, ?_, ?_⟩
      · intro hnext hquit
        exact absurd (htimely hnext) (by rw [show s.quit = true from hquit]; exact Bool.noConfusion)
      · intro hleft
        have hleft : s.state = .left := hleft
        change s.missions.queue ++ [⟨task, none⟩] = lateTasks ++ s.late (.submit t task)
        rw [h.queue hleft, late, if_pos hleft]
        rfl
      · intro hleft u hu
        exact h.waiters hleft u (unserved_of_setThread (s := s.push ⟨task, none⟩) rfl hu)
  | submitAndWait t task =>
      refine ⟨?_, ?_, ?_⟩
      · intro hnext hquit
        exact absurd (htimely.1 hnext)
          (by rw [show s.quit = true from hquit]; exact Bool.noConfusion)
      · exact fun hleft => absurd hleft htimely.2
      · exact fun hleft => absurd hleft htimely.2
  | stopLoop t =>
      rw [late_nil rfl, List.append_nil]
      refine ⟨fun hnext _ => htimely hnext, h.queue, ?_⟩
      intro hleft u hu
      exact h.waiters hleft u (unserved_of_setThread (s := { s with quit := true }) rfl hu)
  | wakeUp t =>
      rcases exists_of_isWaking hl with ⟨call, hcall⟩
      rw [late_nil rfl, List.append_nil, next_wakeUp hcall]
      exact h.frame rfl rfl rfl fun u hu => (unserved_wakeUp hcall).1 hu
  | resume t =>
      rw [late_nil rfl, List.append_nil]
      exact h.frame rfl rfl rfl fun u hu => unserved_of_setThread rfl hu

/-! ### Runs that leave a task behind -/

/-- A task is left behind, or will be at the next check. -/
inductive Stranded (lateTasks : List (Mission τ ι)) (s : EventLoop τ ι) : Prop where
  | leaving (hnext : s.CheckNext) (hquit : s.quit = true) (hqueue : s.missions.queue ≠ [])
  | queue (hleft : s.state = .left) (hqueue : s.missions.queue ≠ lateTasks)
  | waiter (hleft : s.state = .left) (t : ι) (ht : s.Unserved t)

/-- **Step lemma** for a step that is not timely. -/
theorem stranded_of_not_timely (hk : s.Kept lateTasks) {l : LoopLabel τ ι}
    (hl : s.Possible l) (htimely : ¬s.Timely l) :
    (s.next l).Stranded (lateTasks ++ s.late l) := by
  cases l with
  | loop => exact absurd trivial htimely
  | poll active => exact absurd trivial htimely
  | handle drained => exact absurd trivial htimely
  | wakeUp t => exact absurd trivial htimely
  | resume t => exact absurd trivial htimely
  | pollFailed retry =>
      have hpoll : s.state = .poll := hl
      rcases Classical.not_imp.1 htimely with ⟨hretry, hqueue⟩
      cases retry with
      | true => exact .leaving (.inr rfl) (hretry rfl) hqueue
      | false =>
          apply Stranded.queue rfl
          rw [late_nil rfl, hk.late (by rw [hpoll]; exact LoopState.noConfusion)]
          exact hqueue
  | submit t task =>
      rcases Classical.not_imp.1 htimely with ⟨hnext, hquit⟩
      exact .leaving hnext (Bool.not_eq_false _ ▸ hquit) (List.append_ne_nil_of_right_ne_nil _
        (List.cons_ne_nil _ _))
  | submitAndWait t task =>
      by_cases hleft : s.state = .left
      · exact Stranded.waiter (s := s.next (.submitAndWait t task)) hleft t
          (unserved_self t task)
      · rcases Classical.not_imp.1 fun hquit => htimely ⟨hquit, hleft⟩ with ⟨hnext, hquit⟩
        exact .leaving hnext (Bool.not_eq_false _ ▸ hquit) (List.append_ne_nil_of_right_ne_nil _
          (List.cons_ne_nil _ _))
  | stopLoop t =>
      rcases Classical.not_imp.1 htimely with ⟨hnext, hqueue⟩
      exact .leaving hnext rfl hqueue

omit [DecidableEq ι] in
theorem Unserved.ne {t u : ι} (h : s.Unserved u) (ht : (s.threads t).inWait = false) :
    u ≠ t := by
  intro heq
  have hwait := h.1
  rw [heq, ht] at hwait
  cases hwait

/-- After the loop thread has left, a step only pushes, and no waiting thread is served. -/
theorem next_left (hleft : s.state = .left) {l : LoopLabel τ ι} (hl : s.Possible l) :
    (s.next l).state = .left ∧ (s.next l).missions.queue = s.missions.queue ++ s.pushed l ∧
      ∀ t, s.Unserved t → (s.next l).Unserved t := by
  cases l with
  | loop =>
      rw [Possible, hleft] at hl
      cases hl
  | poll active => exact absurd (hleft.symm.trans hl.1) LoopState.noConfusion
  | pollFailed retry => exact absurd (hleft.symm.trans hl) LoopState.noConfusion
  | handle drained =>
      rw [Possible, hleft] at hl
      cases hl
  | submit t task =>
      refine ⟨hleft, rfl, ?_⟩
      intro u hu
      have hne := hu.ne (t := t) (by rw [hl.2]; rfl)
      exact (unserved_setThread (s := s.push ⟨task, none⟩) hne).2 hu
  | submitAndWait t task =>
      refine ⟨hleft, rfl, ?_⟩
      intro u hu
      have hne := hu.ne (t := t) (by rw [hl.2]; rfl)
      exact (unserved_submitAndWait hne task).2 hu
  | stopLoop t =>
      refine ⟨hleft, (List.append_nil _).symm, ?_⟩
      intro u hu
      have hne := hu.ne (t := t) (by rw [hl.2]; rfl)
      exact (unserved_setThread (s := { s with quit := true }) hne).2 hu
  | wakeUp t =>
      rcases exists_of_isWaking hl with ⟨call, hcall⟩
      rw [next_wakeUp hcall]
      exact ⟨hleft, (List.append_nil _).symm, fun u hu => (unserved_wakeUp hcall).2 hu⟩
  | resume t =>
      refine ⟨hleft, (List.append_nil _).symm, ?_⟩
      intro u hu
      have hne : u ≠ t := by
        intro heq
        have hdone := hu.2
        rw [heq, hl.2] at hdone
        cases hdone
      exact (unserved_setThread hne).2 hu

/-- With `quit_` set and a task queued, the next check strands the task. -/
theorem stranded_loop (hk : s.Kept lateTasks) (hnext : s.CheckNext) (hquit : s.quit = true)
    (hqueue : s.missions.queue ≠ []) : s.loop.Stranded lateTasks := by
  rcases hnext with hstate | hstate
  · cases hbatch : s.missions.batch with
    | nil =>
        rw [loop_run_nil hstate hbatch]
        exact .leaving (.inr rfl) hquit hqueue
    | cons m rest =>
        rw [loop_run_cons hstate hbatch]
        have hsame : (s.runMission m).missions.queue = s.missions.queue :=
          Mailbox.queue_runNext _
        exact .leaving (.inl hstate) hquit (hsame ▸ hqueue)
  · rw [loop_check hstate, hquit, hk.late (by rw [hstate]; exact LoopState.noConfusion)]
    exact .queue rfl hqueue

/-- **Step lemma** for a task that is left behind. -/
theorem Stranded.next (h : s.Stranded lateTasks) (hk : s.Kept lateTasks)
    {l : LoopLabel τ ι} (hl : s.Possible l) :
    (s.next l).Stranded (lateTasks ++ s.late l) := by
  cases h with
  | queue hleft hqueue =>
      rcases next_left hleft hl with ⟨hleft', hpushed, _⟩
      apply Stranded.queue hleft'
      rw [hpushed, late, if_pos hleft]
      exact fun heq => hqueue (List.append_cancel_right heq)
  | waiter hleft t ht =>
      rcases next_left hleft hl with ⟨hleft', _, hunserved⟩
      exact .waiter hleft' t (hunserved t ht)
  | leaving hnext hquit hqueue =>
      have hpoll : s.state ≠ .poll := by
        intro heq
        rcases hnext with hstate | hstate
        · exact absurd (hstate.symm.trans heq) LoopState.noConfusion
        · exact absurd (hstate.symm.trans heq) LoopState.noConfusion
      cases l with
      | loop =>
          rw [late_nil rfl, List.append_nil]
          exact stranded_loop hk hnext hquit hqueue
      | poll active => exact absurd hl.1 hpoll
      | pollFailed retry => exact absurd hl hpoll
      | handle drained =>
          rcases exists_of_canHandle hl with ⟨wakeup, rest, hstate⟩
          rcases hnext with hstate' | hstate'
          · exact absurd (hstate.symm.trans hstate') LoopState.noConfusion
          · exact absurd (hstate.symm.trans hstate') LoopState.noConfusion
      | submit t task =>
          exact .leaving hnext hquit (List.append_ne_nil_of_right_ne_nil _ (List.cons_ne_nil _ _))
      | submitAndWait t task =>
          exact .leaving hnext hquit (List.append_ne_nil_of_right_ne_nil _ (List.cons_ne_nil _ _))
      | stopLoop t => exact .leaving hnext rfl hqueue
      | wakeUp t =>
          rcases exists_of_isWaking hl with ⟨call, hcall⟩
          rw [next_wakeUp hcall]
          exact .leaving hnext hquit hqueue
      | resume t => exact .leaving hnext hquit hqueue

/-! ### Every run -/

theorem Kept.next (hk : s.Kept lateTasks) {l : LoopLabel τ ι} (hl : s.Possible l) :
    (s.next l).Kept (lateTasks ++ s.late l) where
  batch := hk.batch.next hl
  waits := hk.waits.next hk.batch hl
  late := by
    intro hleft
    have hopen : s.state ≠ .left := fun heq => hleft (next_left heq hl).1
    rw [hk.late hopen, late_of_ne hopen, List.append_nil]

/-- **Run lemma.** -/
theorem serving_run (ls : List (LoopLabel τ ι)) (hlegal : (eventLoop τ ι).Legal new ls) :
    let s := (eventLoop τ ι).run new ls
    let lateTasks := (eventLoop τ ι).collect late new ls
    s.Kept lateTasks ∧ ((eventLoop τ ι).Each Timely new ls → s.Serving lateTasks) ∧
      (¬(eventLoop τ ι).Each Timely new ls → s.Stranded lateTasks) := by
  refine (eventLoop τ ι).run_invariant_history
    (I := fun ls s => s.Kept ((eventLoop τ ι).collect late new ls) ∧
      ((eventLoop τ ι).Each Timely new ls → s.Serving ((eventLoop τ ι).collect late new ls)) ∧
      (¬(eventLoop τ ι).Each Timely new ls →
        s.Stranded ((eventLoop τ ι).collect late new ls))) ?_ ?_ ls hlegal
  · refine ⟨⟨fun _ => rfl, ?_, fun _ => rfl⟩, fun _ => ?_, ?_⟩
    · intro t ht
      cases ht.1
    · exact serving_of_state LoopState.noConfusion LoopState.noConfusion LoopState.noConfusion
    · intro hnone
      exact absurd (fun n hn => absurd hn (Nat.not_lt_zero n)) hnone
  · intro ls l hlegal hI
    have hl := Machine.Legal.enabled_at _ hlegal
    rcases hI with ⟨hk, hserving, hstranded⟩
    rw [Machine.collect_concat, Machine.each_concat]
    refine ⟨hk.next hl, ?_, ?_⟩
    · intro htimely
      exact (hserving htimely.1).next hk hl htimely.2
    · intro hnone
      by_cases hbefore : (eventLoop τ ι).Each Timely new ls
      · exact stranded_of_not_timely hk hl fun htimely => hnone ⟨hbefore, htimely⟩
      · exact (hstranded hbefore).next hk hl

/-- **When nobody is left waiting.**  In every run in which the loop thread has left
`Loop`, every task pushed before has run and no thread is left in a `SubmitAndWait`
exactly when every step of the run was timely. -/
theorem served_iff (ls : List (LoopLabel τ ι)) (hlegal : (eventLoop τ ι).Legal new ls)
    (hleft : ((eventLoop τ ι).run new ls).state = .left) :
    Served ls ↔ (eventLoop τ ι).Each Timely new ls := by
  rcases serving_run ls hlegal with ⟨_, hserving, hstranded⟩
  constructor
  · intro hserved
    by_contra hnone
    cases hstranded hnone with
    | leaving hnext hquit hqueue =>
        rcases hnext with hstate | hstate
        · exact absurd (hleft.symm.trans hstate) LoopState.noConfusion
        · exact absurd (hleft.symm.trans hstate) LoopState.noConfusion
    | queue _ hqueue => exact hqueue hserved.queue
    | waiter _ t ht => exact hserved.waiters t ht
  · intro htimely
    have h := hserving htimely
    exact ⟨h.queue hleft, h.waiters hleft⟩

end EventLoop

/-! ## Two runs -/

/-- Another thread stops the loop between its publication and the start of `Loop`: the
request is lost, and the loop thread goes on to its poll. -/
theorem stop_lost :
    let ls : List (LoopLabel Nat Bool) := [.loop, .stopLoop false, .wakeUp false, .loop]
    (eventLoop Nat Bool).Legal .new ls ∧ ((eventLoop Nat Bool).run .new ls).quit = false ∧
      ((eventLoop Nat Bool).run .new (ls ++ [.loop])).state = .poll := by
  decide

/-- A request during the poll is kept. -/
theorem stop_kept_iff_poll :
    ((eventLoop Nat Bool).run .new [.loop, .loop, .loop, .stopLoop false]).StopKept :=
  (EventLoop.stop_kept_iff (τ := Nat) [.loop, .loop, .loop] false (by decide)).2 (by decide)

/-- The loop is stopped while the loop thread runs an empty batch; then another thread
calls `SubmitAndWait`, and the loop thread leaves. -/
theorem waiter_stranded :
    let ls : List (LoopLabel Nat Bool) :=
      [.loop, .loop, .loop, .poll [], .loop, .loop, .stopLoop false, .submitAndWait true 1,
        .wakeUp true, .loop, .loop]
    let s := (eventLoop Nat Bool).run .new ls
    (eventLoop Nat Bool).Legal .new ls ∧ s.state = .left ∧
      s.missions.queue = [⟨1, some true⟩] ∧ s.Unserved true := by
  decide

/-- A task pushed before the swap is served. -/
theorem served_iff_one :
    EventLoop.Served (τ := Nat) (ι := Bool)
      [.loop, .loop, .loop, .submitAndWait true 1, .wakeUp true, .stopLoop false, .poll [],
        .loop, .loop, .loop, .loop, .loop] :=
  (EventLoop.served_iff _ (by decide) (by decide)).2 (by decide)

end Adachi.Tool
