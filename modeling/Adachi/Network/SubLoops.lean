import Adachi.Network.Registry

/-!
# What a sub-loop is busy with

A sub-loop sets up one connection at a time, and waits for the base loop in the middle of it.
What it is busy with changes by its own steps only; a close callback begins in a step of its
connection and ends when the function that called it lets go of `self`.

## Main results

* `SetUps.next`: a sub-loop is in the set-up of a connection exactly from the construction of
  the object to the end of the task.
* `closing_next`: what a step does to the close callbacks.
-/

namespace Adachi.Network

open Adachi.Io

/-- The sub-loop whose state a step changes -/
def ServerStep.subLoop {ι : Type} (g : Settings ι) : ServerStep ι → Option LoopId
  | .construct i _ => some (g.home i)
  | .finishSetUp i => some (g.home i)
  | .poll k _ => some k
  | .handle k => some k
  | .handled k => some k
  | _ => none

namespace TcpServer

variable {ι : Type} [DecidableEq ι] {g : Settings ι} {s : TcpServer ι} {i j : ι} {k : LoopId}

omit [DecidableEq ι] in
@[simp] theorem setLoop_self (s : TcpServer ι) (k : LoopId) (loop : SubLoop ι) :
    (s.setLoop k loop).loops k = loop := Function.update_self ..

omit [DecidableEq ι] in
theorem setLoop_of_ne (s : TcpServer ι) {k m : LoopId} (hne : m ≠ k) (loop : SubLoop ι) :
    (s.setLoop k loop).loops m = s.loops m := Function.update_of_ne hne ..

/-- A task of the base loop runs on the base loop. -/
@[simp] theorem run_loops (s : TcpServer ι) : s.run.loops = s.loops := by
  unfold TcpServer.run
  split
  · rfl
  · rfl
  · rfl

omit [DecidableEq ι] in
theorem handle_loops_of_ne (s : TcpServer ι) {k m : LoopId} (hne : m ≠ k) :
    (s.handle k).loops m = s.loops m := by
  unfold TcpServer.handle
  split
  · rfl
  · exact setLoop_of_ne s hne _

omit [DecidableEq ι] in
@[simp] theorem handle_links (s : TcpServer ι) (k : LoopId) : (s.handle k).links = s.links := by
  unfold TcpServer.handle
  split
  · rfl
  · rfl

/-- **Frame.**  A step changes the state of its own sub-loop only. -/
theorem loops_next {l : ServerStep ι} (hk : l.subLoop g ≠ some k) :
    (s.next g l).loops k = s.loops k := by
  cases l with
  | construct i fd =>
      exact setLoop_of_ne _ (fun heq => hk (congrArg some heq.symm)) _
  | finishSetUp i =>
      exact setLoop_of_ne _ (fun heq => hk (congrArg some heq.symm)) _
  | poll m active => exact setLoop_of_ne s (fun heq => hk (congrArg some heq.symm)) _
  | handle m => exact handle_loops_of_ne s fun heq => hk (congrArg some heq.symm)
  | handled m => exact setLoop_of_ne s (fun heq => hk (congrArg some heq.symm)) _
  | run => exact congrFun s.run_loops k
  | submitInsert | resume | setCloseCallback | work | submitErase | closeDone | swap
  | release => rfl

/-! ## Set-ups -/

/-- The sub-loop `k` is setting `i` up exactly when the set-up of `i` is under way on `k`. -/
def SetUps (g : Settings ι) (s : TcpServer ι) : Prop :=
  ∀ k i, (s.loops k).setUp = some i ↔ g.home i = k ∧ (s.links i).stage.holdsLink = true

/-- The set-up of `i` stays under way, or stays away. -/
theorem SetUps.setLink (h : s.SetUps g) {link : Link}
    (hstage : link.stage.holdsLink = (s.links i).stage.holdsLink) :
    (s.setLink i link).SetUps g := by
  intro k j
  by_cases hne : j = i
  · subst hne
    rw [setLink_self, hstage]
    exact h k j
  · rw [setLink_of_ne s hne]
    exact h k j

omit [DecidableEq ι] in
theorem SetUps.setLoop (h : s.SetUps g) {loop : SubLoop ι}
    (hsetUp : loop.setUp = (s.loops k).setUp) : (s.setLoop k loop).SetUps g := by
  intro m j
  by_cases hne : m = k
  · subst hne
    rw [show (s.setLoop m loop).loops m = loop from Function.update_self .., hsetUp]
    exact h m j
  · rw [show (s.setLoop k loop).loops m = s.loops m from Function.update_of_ne hne ..]
    exact h m j

/-- The set-up of `i` begins, or ends, on its sub-loop. -/
theorem SetUps.setBoth (h : s.SetUps g) {link : Link} {loop : SubLoop ι}
    (hbefore : ∀ j ∈ (s.loops (g.home i)).setUp, j = i)
    (hafter : loop.setUp = if link.stage.holdsLink then some i else none) :
    ((s.setLink i link).setLoop (g.home i) loop).SetUps g := by
  intro k j
  by_cases hk : k = g.home i
  · subst hk
    rw [setLoop_self, hafter]
    show _ ↔ _ ∧ ((s.setLink i link).links j).stage.holdsLink = true
    by_cases hj : j = i
    · subst hj
      rw [setLink_self]
      simp
    · rw [setLink_of_ne s hj]
      refine iff_of_false ?_ fun hown => hj (hbefore j ((h _ j).2 hown))
      split
      · exact fun heq => hj (Option.some_inj.1 heq).symm
      · exact (Option.some_ne_none j).symm
  · rw [setLoop_of_ne _ hk]
    show (s.loops k).setUp = some j ↔ _ ∧ ((s.setLink i link).links j).stage.holdsLink = true
    by_cases hj : j = i
    · subst hj
      exact iff_of_false (fun hsetUp => hk ((h k j).1 hsetUp).1.symm) fun hhome => hk hhome.1.symm
    · rw [setLink_of_ne s hj]
      exact h k j

theorem SetUps.run (h : s.SetUps g) : s.run.SetUps g := by
  unfold TcpServer.run
  cases s.base.batch with
  | nil => exact h
  | cons task rest =>
      cases task with
      | insert j =>
          have hlink : (s.setLink j { s.links j with inserted := true }).SetUps g := h.setLink rfl
          exact hlink
      | erase j => exact h

/-- **Step lemma.** -/
theorem SetUps.next (h : s.SetUps g) {l : ServerStep ι} (hl : s.Possible g l) :
    (s.next g l).SetUps g := by
  cases l with
  | construct i fd =>
      refine h.setBoth ?_ rfl
      intro j hj
      rw [show s.loops (g.home i) = _ from hl.2] at hj
      cases hj
  | submitInsert i =>
      have hstage : (s.links i).stage = .constructed := hl
      refine SetUps.setLink (s := s.push (.insert i)) h ?_
      show true = (s.links i).stage.holdsLink
      rw [hstage]
      rfl
  | resume i => exact h.setLink (by rw [hl.1]; rfl)
  | setCloseCallback i => exact h.setLink (by rw [show (s.links i).stage = .inserted from hl]; rfl)
  | finishSetUp i =>
      refine h.setBoth ?_ rfl
      intro j hj
      have hi := (h (g.home i) i).2 ⟨rfl, by rw [hl.1]; rfl⟩
      exact Option.some_inj.1 ((Option.mem_def.1 hj).symm.trans hi)
  | work i l => exact h.setLink rfl
  | submitErase i => exact SetUps.setLink (s := s.push (.erase i)) h rfl
  | closeDone i => exact h.setLink rfl
  | swap => exact h
  | run => exact h.run
  | release => exact h
  | poll k active => exact h.setLoop rfl
  | handle k =>
      change (s.handle k).SetUps g
      unfold TcpServer.handle
      split
      · exact h
      · exact h.setLoop rfl
  | handled k => exact h.setLoop rfl

/-! ## Close callbacks and insertions -/

/-- A field that the new link of `i` keeps -/
theorem update_keeps {β : Type} (f : Link → β) {links : ι → Link} {link : Link}
    (hlink : f link = f (links i)) (j : ι) : f (Function.update links i link j) = f (links j) := by
  by_cases hj : j = i
  · subst hj
    rw [Function.update_self, hlink]
  · rw [Function.update_of_ne hj]

/-- A step of the base loop sets flags only. -/
theorem run_keeps {β : Type} (f : Link → β)
    (hf : ∀ link, f { link with inserted := true } = f link) (s : TcpServer ι) (j : ι) :
    f (s.run.links j) = f (s.links j) := by
  unfold TcpServer.run
  split
  · rfl
  · exact update_keeps f (hf _) j
  · rfl

/-- **Inversion.**  A close callback begins in a step of its connection, submits the erase task
and is done. -/
theorem closing_next {l : ServerStep ι} (hl : s.Possible g l) (j : ι) :
    ((s.next g l).links j).closing = (s.links j).closing ∨
      (∃ label, l = .work j label ∧ ((s.next g l).links j).closing = .calling) ∨
      (l = .submitErase j ∧ (s.links j).closing = .calling ∧
        ((s.next g l).links j).closing = .submitted) ∨
      (l = .closeDone j ∧ (s.links j).closing = .submitted ∧
        ((s.next g l).links j).closing = .returned) := by
  cases l with
  | construct i fd | submitInsert i | resume i | setCloseCallback i | finishSetUp i =>
      left
      show Link.closing (Function.update s.links i _ j) = _
      exact update_keeps Link.closing (by rfl) j
  | work i label =>
      show Link.closing (Function.update s.links i _ j) = _ ∨ _
      by_cases hj : j = i
      · subst hj
        rw [Function.update_self]
        by_cases hcalls : (s.links j).conn.effects.count .closeCallback <
            ((s.links j).conn.step label).effects.count .closeCallback
        · refine .inr (.inl ⟨label, rfl, ?_⟩)
          show Link.closing (Function.update s.links j _ j) = _
          rw [Function.update_self]
          exact if_pos hcalls
        · exact .inl (if_neg hcalls)
      · rw [Function.update_of_ne hj]
        exact .inl rfl
  | submitErase i =>
      by_cases hj : j = i
      · subst hj
        refine .inr (.inr (.inl ⟨rfl, hl, ?_⟩))
        show Link.closing (Function.update s.links j _ j) = _
        rw [Function.update_self]
      · exact .inl (congrArg Link.closing (Function.update_of_ne hj ..))
  | closeDone i =>
      by_cases hj : j = i
      · subst hj
        refine .inr (.inr (.inr ⟨rfl, hl, ?_⟩))
        show Link.closing (Function.update s.links j _ j) = _
        rw [Function.update_self]
      · exact .inl (congrArg Link.closing (Function.update_of_ne hj ..))
  | run => exact .inl (run_keeps Link.closing (fun _ => rfl) s j)
  | handle k => exact .inl (congrArg (fun links => (links j).closing) (s.handle_links k))
  | swap | release | poll | handled => exact .inl rfl

/-- Only the base loop inserts. -/
theorem inserted_next_of_ne {l : ServerStep ι} (hrun : l ≠ .run) (j : ι) :
    ((s.next g l).links j).inserted = (s.links j).inserted := by
  cases l with
  | construct i fd | submitInsert i | resume i | setCloseCallback i | finishSetUp i | work i label
  | submitErase i | closeDone i =>
      show Link.inserted (Function.update s.links i _ j) = _
      exact update_keeps Link.inserted (by rfl) j
  | run => exact absurd rfl hrun
  | handle k => exact congrArg (fun links => (links j).inserted) (s.handle_links k)
  | swap | release | poll | handled => rfl

/-- **Inversion.**  A set-up begins with the object and ends with its task. -/
theorem holdsLink_next {l : ServerStep ι} (hl : s.Possible g l) (j : ι) :
    ((s.next g l).links j).stage.holdsLink = (s.links j).stage.holdsLink ∨
      (∃ fd, l = .construct j fd) ∨
      (l = .finishSetUp j ∧ ((s.next g l).links j).stage.holdsLink = false) := by
  have hkeeps : ∀ {i : ι} {link : Link}, link.stage.holdsLink = (s.links i).stage.holdsLink →
      (Function.update s.links i link j).stage.holdsLink = (s.links j).stage.holdsLink :=
    fun hlink => update_keeps (fun link => link.stage.holdsLink) hlink j
  cases l with
  | construct i fd =>
      by_cases hj : j = i
      · subst hj
        exact .inr (.inl ⟨fd, rfl⟩)
      · left
        show (Function.update s.links i _ j).stage.holdsLink = _
        rw [Function.update_of_ne hj]
  | submitInsert i =>
      exact .inl (hkeeps (by rw [show (s.links i).stage = .constructed from hl]; rfl))
  | resume i => exact .inl (hkeeps (by rw [hl.1]; rfl))
  | setCloseCallback i =>
      exact .inl (hkeeps (by rw [show (s.links i).stage = .inserted from hl]; rfl))
  | finishSetUp i =>
      by_cases hj : j = i
      · subst hj
        refine .inr (.inr ⟨rfl, ?_⟩)
        show (Function.update s.links j _ j).stage.holdsLink = false
        rw [Function.update_self]
        rfl
      · left
        show (Function.update s.links i _ j).stage.holdsLink = _
        rw [Function.update_of_ne hj]
  | work i label | submitErase i | closeDone i => exact .inl (hkeeps (by rfl))
  | run => exact .inl (run_keeps (fun link => link.stage.holdsLink) (fun _ => rfl) s j)
  | handle k => exact .inl (congrArg (fun links => (links j).stage.holdsLink) (s.handle_links k))
  | swap | release | poll | handled => exact .inl rfl

/-- The set-up of a connection that has not been inserted goes on. -/
theorem SetUps.waits (h : s.SetUps g) (hregistered : s.Registered) {l : ServerStep ι}
    (hl : s.Possible g l) (hsetUp : (s.loops k).setUp = some i)
    (hinserted : (s.links i).inserted = false) : ((s.next g l).loops k).setUp = some i := by
  obtain ⟨hhome, hlink⟩ := (h k i).1 hsetUp
  refine (h.next hl k i).2 ⟨hhome, ?_⟩
  rcases holdsLink_next hl i with heq | ⟨fd, hconstruct⟩ | ⟨hfinish, _⟩
  · rw [heq, hlink]
  · subst hconstruct
    have hstage : (s.links i).stage = .accepted := hl.1
    rw [hstage] at hlink
    cases hlink
  · subst hfinish
    have hready := (hregistered i).link.inserted (by rw [show (s.links i).stage = _ from hl.1]; rfl)
    rw [hinserted] at hready
    cases hready

/-- Only the construction of an object begins a set-up. -/
theorem SetUps.of_next (h : s.SetUps g) {l : ServerStep ι} (hl : s.Possible g l)
    (hconstruct : ∀ fd, l ≠ .construct i fd)
    (hsetUp : ((s.next g l).loops k).setUp = some i) : (s.loops k).setUp = some i := by
  obtain ⟨hhome, hlink⟩ := (h.next hl k i).1 hsetUp
  refine (h k i).2 ⟨hhome, ?_⟩
  rcases holdsLink_next hl i with heq | ⟨fd, heq⟩ | ⟨_, hnone⟩
  · rw [← heq, hlink]
  · exact absurd heq (hconstruct fd)
  · rw [hnone] at hlink
    cases hlink

end TcpServer

end Adachi.Network
