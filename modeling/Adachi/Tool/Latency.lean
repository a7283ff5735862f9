import Adachi.Tool.StopLoop

/-!
# How long a task waits

A round of `Loop` takes whatever has been submitted when it gets to the swap, and runs it before
the next `epoll_wait`.  So a task that has been pushed waits for the rest of the round that is
going on and for one more: however many threads submit, a task cannot be overtaken or starved.

## Main results

* `done_in_two_rounds`: once `epoll_wait` has returned twice, everything that was pushed before
  has run, and every thread that was in `SubmitAndWait` can go on.
-/

namespace Adachi.Tool

/-- `epoll_wait` returns, and a round of `Loop` begins. -/
def LoopLabel.beginsRound {τ ι : Type} : LoopLabel τ ι → Bool
  | .poll _ => true
  | _ => false

/-- The rounds that begin in a run -/
def rounds {τ ι : Type} (ls : List (LoopLabel τ ι)) : Nat := ls.countP LoopLabel.beginsRound

namespace EventLoop

variable {τ ι : Type} [DecidableEq ι] {s s' : EventLoop τ ι} {tasks : List (Mission τ ι)}

/-! ## Tasks move forward -/

/-- The tasks that the loop thread has taken from the queue -/
def taken (s : EventLoop τ ι) : List (Mission τ ι) := s.missions.done ++ s.missions.batch

/-- What a step does with the tasks that are there: none goes back, and on its way from
`epoll_wait` the loop thread takes them all. -/
structure Ahead (s s' : EventLoop τ ι) : Prop where
  done : s.missions.done <+: s'.missions.done
  taken : s.taken <+: s'.taken
  drained : s.state.draining = true → s'.state.draining = true ∨ s'.missions.queue = []

omit [DecidableEq ι] in
theorem ahead_of_eq (hdone : s'.missions.done = s.missions.done)
    (hbatch : s'.missions.batch = s.missions.batch)
    (hdrained : s.state.draining = true → s'.state.draining = true) : s.Ahead s' where
  done := by simp [hdone]
  taken := by simp [EventLoop.taken, hdone, hbatch]
  drained h := .inl (hdrained h)

theorem BatchDone.ahead_loop (h : s.BatchDone) : s.Ahead s.loop := by
  by_cases hswap : s.state = .swap
  · have hbatch : s.missions.batch = [] := h (by simp [hswap])
    rw [loop_swap hswap]
    refine ⟨List.prefix_rfl, ?_, fun _ => .inr rfl⟩
    simp [EventLoop.taken, hbatch, Mailbox.swap, Mailbox.done]
  by_cases hrun : s.state = .run
  · have hnot : ¬s.state.draining = true := by simp [hrun, LoopState.draining]
    cases hbatch : s.missions.batch with
    | nil =>
        rw [loop_run_nil hrun hbatch]
        exact ahead_of_eq (Mailbox.done_release _) rfl fun hd => absurd hd hnot
    | cons m rest =>
        rw [loop_run_cons hrun hbatch]
        have hdone : (s.runMission m).missions.done = s.missions.done ++ [m] :=
          Mailbox.done_runNext hbatch
        have hrest : (s.runMission m).missions.batch = rest := by
          show s.missions.runNext.batch = rest
          rw [Mailbox.runNext_cons hbatch]
        refine ⟨?_, ?_, fun hd => absurd hd hnot⟩
        · simp [hdone]
        · simp [EventLoop.taken, hdone, hrest, hbatch]
  · obtain ⟨state, quit, heq, _, hdraining, _⟩ := loop_moves hswap hrun
    rw [heq]
    refine ahead_of_eq rfl rfl ?_
    intro hd
    rcases hdraining with hsame | rfl
    · exact hsame.trans hd
    · rfl

/-- **Step lemma.** -/
theorem BatchDone.ahead (h : s.BatchDone) {l : LoopLabel τ ι} (hl : s.Possible l) :
    s.Ahead (s.next l) := by
  cases l with
  | loop => exact h.ahead_loop
  | poll active => exact ahead_of_eq rfl rfl fun _ => rfl
  | pollFailed retry =>
      have hstate : s.state = .poll := hl
      exact ahead_of_eq rfl rfl fun hd => by simp [hstate, LoopState.draining] at hd
  | handle drained =>
      obtain ⟨wakeup, rest, hstate⟩ := exists_of_canHandle hl
      show s.Ahead (s.handle drained)
      rw [handle_cons hstate]
      exact ahead_of_eq rfl rfl fun _ => rfl
  | submit t task => exact ahead_of_eq rfl rfl id
  | submitAndWait t task => exact ahead_of_eq rfl rfl id
  | stopLoop t => exact ahead_of_eq rfl rfl id
  | wakeUp t =>
      obtain ⟨call, hcall⟩ := exists_of_isWaking hl
      rw [next_wakeUp hcall]
      exact ahead_of_eq rfl rfl id
  | resume t => exact ahead_of_eq rfl rfl id

/-! ## Rounds -/

/-- Where tasks have come to when `n` rounds have begun since they were pushed. -/
structure Within (tasks : List (Mission τ ι)) (n : Nat) (s : EventLoop τ ι) : Prop where
  pushed : tasks <+: s.missions.all
  first : 1 ≤ n → s.state.draining = true ∨ tasks <+: s.taken
  second : 2 ≤ n → tasks <+: s.missions.done

/-- **Step lemma.** -/
theorem Within.next {n : Nat} (h : s.Within tasks n) (hbatch : s.BatchDone) {l : LoopLabel τ ι}
    (hl : s.Possible l) : (s.next l).Within tasks (n + l.beginsRound.toNat) := by
  have hahead := hbatch.ahead hl
  have hpushed : tasks <+: (s.next l).missions.all := by
    rw [all_next hbatch hl]
    exact h.pushed.trans (List.prefix_append ..)
  by_cases hround : l.beginsRound = true
  · -- at its `epoll_wait` the loop thread has run what it has taken
    obtain ⟨active, rfl⟩ : ∃ active, l = .poll active := by
      cases l with
      | poll active => exact ⟨active, rfl⟩
      | _ => cases hround
    refine ⟨hpushed, fun _ => .inl rfl, fun hn => ?_⟩
    have hstate : s.state = .poll := hl.1
    have hran := hbatch (by simp [hstate])
    rcases h.first (Nat.le_of_succ_le_succ hn) with hdraining | htaken
    · simp [hstate, LoopState.draining] at hdraining
    · rw [EventLoop.taken, hran, List.append_nil] at htaken
      exact htaken
  · have hsame : n + l.beginsRound.toNat = n := by simp [Bool.eq_false_iff.2 hround]
    rw [hsame]
    refine ⟨hpushed, fun hn => ?_, fun hn => (h.second hn).trans hahead.done⟩
    rcases h.first hn with hdraining | htaken
    · rcases hahead.drained hdraining with hdraining' | hqueue
      · exact .inl hdraining'
      · right
        rw [Mailbox.all_eq_done, hqueue, List.append_nil] at hpushed
        exact hpushed
    · exact .inr (htaken.trans hahead.taken)

/-- **Run lemma.** -/
theorem BatchDone.within_run (h : s.BatchDone) (ms : List (LoopLabel τ ι))
    (hlegal : (eventLoop τ ι).Legal s ms) :
    ((eventLoop τ ι).run s ms).BatchDone ∧
      ((eventLoop τ ι).run s ms).Within s.missions.all (rounds ms) := by
  refine (eventLoop τ ι).run_invariant_history
    (I := fun ms s' => s'.BatchDone ∧ s'.Within s.missions.all (rounds ms)) ?_ ?_ ms hlegal
  · exact ⟨h, List.prefix_rfl, nofun, nofun⟩
  · intro ms l hlegal ⟨hbatch, hwithin⟩
    have hl := Machine.Legal.enabled_at _ hlegal
    have hrounds : rounds (ms ++ [l]) = rounds ms + l.beginsRound.toNat := by
      cases hl : l.beginsRound <;> simp [rounds, hl]
    rw [hrounds]
    exact ⟨hbatch.next hl, hwithin.next hbatch hl⟩

/-! ## Waiting threads -/

/-- A thread in `SubmitAndWait` stays there until it goes on, and pushes nothing. -/
theorem inWait_next {t : ι} (hwait : (s.threads t).inWait = true) {l : LoopLabel τ ι}
    (hl : s.Possible l) (hstays : l ≠ .resume t) :
    ((s.next l).threads t).inWait = true ∧ ∀ m ∈ s.pushed l, m.waiter ≠ some t := by
  have hother : ∀ u state, s.threads u = .idle → (s.setThread u state).threads t = s.threads t := by
    intro u state hidle
    have hne : t ≠ u := by
      rintro rfl
      simp [hidle, ThreadState.inWait] at hwait
    exact Function.update_of_ne hne ..
  cases l with
  | loop => exact ⟨(congrFun s.loop_threads t) ▸ hwait, nofun⟩
  | poll active => exact ⟨hwait, nofun⟩
  | pollFailed retry => exact ⟨hwait, nofun⟩
  | handle drained =>
      obtain ⟨wakeup, rest, hstate⟩ := exists_of_canHandle hl
      refine ⟨?_, nofun⟩
      show ((s.handle drained).threads t).inWait = true
      rw [handle_cons hstate]
      exact hwait
  | submit u task =>
      refine ⟨?_, ?_⟩
      · show ((s.setThread u (.waking .submit)).threads t).inWait = true
        rw [hother u _ hl.2]
        exact hwait
      · simp [pushed]
  | submitAndWait u task =>
      refine ⟨?_, ?_⟩
      · show ((s.setThread u (.waking .submitAndWait)).threads t).inWait = true
        rw [hother u _ hl.2]
        exact hwait
      · intro m hm hwaiter
        obtain rfl := List.mem_singleton.1 hm
        obtain rfl := Option.some_inj.1 hwaiter
        simp [hl.2, ThreadState.inWait] at hwait
  | stopLoop u =>
      refine ⟨?_, nofun⟩
      show ((s.setThread u (.waking .stopLoop)).threads t).inWait = true
      rw [hother u _ hl.2]
      exact hwait
  | wakeUp u =>
      obtain ⟨call, hcall⟩ := exists_of_isWaking hl
      rw [next_wakeUp hcall]
      refine ⟨?_, nofun⟩
      by_cases hne : t = u
      · subst hne
        rw [setThread_self]
        cases call with
        | submitAndWait => rfl
        | submit | stopLoop => simp [hcall, ThreadState.inWait] at hwait
      · show (Function.update s.threads u call.after t).inWait = true
        rw [Function.update_of_ne hne]
        exact hwait
  | resume u =>
      have hne : t ≠ u := fun heq => hstays (heq ▸ rfl)
      refine ⟨?_, nofun⟩
      show (Function.update s.threads u .idle t).inWait = true
      rw [Function.update_of_ne hne]
      exact hwait

theorem BatchDone.inWait_run (h : s.BatchDone) {t : ι} (hwait : (s.threads t).inWait = true)
    {ms : List (LoopLabel τ ι)} (hlegal : (eventLoop τ ι).Legal s ms) (hstays : .resume t ∉ ms) :
    (((eventLoop τ ι).run s ms).threads t).inWait = true ∧
      ∃ later, ((eventLoop τ ι).run s ms).missions.all = s.missions.all ++ later ∧
        ∀ m ∈ later, m.waiter ≠ some t := by
  induction ms generalizing s with
  | nil => exact ⟨hwait, [], by simp, nofun⟩
  | cons l ms ih =>
      obtain ⟨hl, hrest⟩ := hlegal
      rw [List.mem_cons, not_or] at hstays
      obtain ⟨hwait', hpushed⟩ := inWait_next hwait hl (Ne.symm hstays.1)
      obtain ⟨hend, later, hall, hlater⟩ := ih (h.next hl) hwait' hrest hstays.2
      refine ⟨hend, s.pushed l ++ later, ?_, ?_⟩
      · show ((eventLoop τ ι).run (s.next l) ms).missions.all = _
        rw [hall, all_next h hl, List.append_assoc]
      · intro m hm
        rcases List.mem_append.1 hm with hnow | hthen
        · exact hpushed m hnow
        · exact hlater m hthen

theorem waits_run (ls : List (LoopLabel τ ι)) (hlegal : (eventLoop τ ι).Legal new ls) :
    ((eventLoop τ ι).run new ls).BatchDone ∧ ((eventLoop τ ι).run new ls).Waits := by
  refine (eventLoop τ ι).run_invariant (I := fun s => s.BatchDone ∧ s.Waits) ?_ ?_ ls hlegal
  · exact ⟨fun _ => rfl, fun t ht => by cases ht.1⟩
  · exact fun s l h hl => ⟨h.1.next hl, h.2.next h.1 hl⟩

/-- **Two rounds are enough.**  Whatever the threads and the loop thread do: once `epoll_wait` has
returned twice, every task that had been pushed has run, in the order of the pushes, and every
thread that was in `SubmitAndWait` and has not gone on yet has its flag set. -/
theorem done_in_two_rounds (ls ms : List (LoopLabel τ ι))
    (hlegal : (eventLoop τ ι).Legal new (ls ++ ms)) (hrounds : 2 ≤ rounds ms) :
    let s := (eventLoop τ ι).run new ls
    let s' := (eventLoop τ ι).run new (ls ++ ms)
    (eventLoop τ ι).collect pushed new ls <+: s'.missions.done ∧
      ∀ t, (s.threads t).inWait = true → .resume t ∉ ms → s'.done t = true := by
  intro s s'
  obtain ⟨hbefore, hafter⟩ := ((eventLoop τ ι).legal_append new ls ms).1 hlegal
  obtain ⟨hall, hbatch, _⟩ := missions_run ls hbefore
  have hrun : s' = (eventLoop τ ι).run s ms := (eventLoop τ ι).run_append ..
  have hdone : s.missions.all <+: s'.missions.done := by
    rw [hrun]
    exact (hbatch.within_run ms hafter).2.second hrounds
  refine ⟨hall ▸ hdone, ?_⟩
  intro t hwait hstays
  by_contra hflag
  obtain ⟨hwait', later, hlater, hnone⟩ := hbatch.inWait_run hwait hafter hstays
  rw [← hrun] at hwait' hlater
  obtain ⟨m, hm, hwaiter⟩ := (waits_run (ls ++ ms) hlegal).2 t ⟨hwait', Bool.eq_false_iff.2 hflag⟩
  obtain ⟨ran, hran⟩ := hdone
  rw [Mailbox.all_eq_done, ← hran, List.append_assoc, List.append_cancel_left_eq] at hlater
  exact hnone m (hlater ▸ List.mem_append_right _ hm) hwaiter

end EventLoop

/-- A thread submits a task while the loop thread is in its first round, and waits. -/
theorem done_in_two_rounds_wait :
    let ls : List (LoopLabel Nat Bool) :=
      [.loop, .loop, .loop, .poll [], .loop, .loop, .submitAndWait true 7, .wakeUp true]
    let ms : List (LoopLabel Nat Bool) :=
      [.loop, .loop, .poll [true], .handle true, .loop, .loop, .loop, .loop, .loop, .poll []]
    ((eventLoop Nat Bool).run .new (ls ++ ms)).done true = true := by
  intro ls ms
  exact (EventLoop.done_in_two_rounds ls ms (by decide) (by decide)).2 true (by decide) (by decide)

end Adachi.Tool
