import Adachi.Network.Registry

/-!
# Dispatch on connections that exist

`active_list` holds raw pointers.  The connections in it are kept alive by `tcpst_` and
by the tasks of the base loop, which are released on another thread, and inside
`Handle` by a guard, but only when the channel is tied: with the heartbeat off it never
is, and `RemoveFromLoop` unties it.  So a connection that closes itself in `Handle`
without a guard, or that an earlier entry of the same `active_list` closes, can be
destroyed as soon as the base loop has run its erase task and released the batch.

## Main results

* `listed_alive`: that is the only way.
-/

namespace Adachi.Network

open Adachi.Io

namespace TcpServer

variable {ι : Type} [DecidableEq ι] {g : Settings ι} {s s' : TcpServer ι} {i : ι}

/-- The base loop does not release the erase task of a connection that is listed and not
guarded. -/
def ReleaseSafe (g : Settings ι) (s : TcpServer ι) : ServerStep ι → Prop
  | .release => ∀ task ∈ s.base.ran, task = .erase task.conn → ¬s.Exposed g task.conn
  | _ => True

instance (g : Settings ι) (s : TcpServer ι) :
    (l : ServerStep ι) → Decidable (s.ReleaseSafe g l)
  | .release => inferInstanceAs (Decidable
      (∀ task ∈ s.base.ran, task = .erase task.conn → ¬s.Exposed g task.conn))
  | .construct .. | .submitInsert _ | .resume _ | .setCloseCallback _ | .finishSetUp _
  | .work .. | .submitErase _ | .closeDone _ | .swap | .run | .poll .. | .handle _
  | .handled _ => inferInstanceAs (Decidable True)

/-! ## The invariant -/

/-- Listed connections have been set up on the loop that lists them, and the erase task of
one that is not guarded has not been released. -/
structure Covered (g : Settings ι) (s : TcpServer ι) : Prop where
  serving : ∀ k i, s.Listed k i → g.home i = k ∧ (s.links i).stage = .serving
  kept : ∀ i, s.Exposed g i → .erase i ∉ s.base.released

omit [DecidableEq ι] in
theorem covered_new : Covered g (new : TcpServer ι) where
  serving k i h := by
    rcases h with hmem | ⟨guard, heq⟩
    · cases hmem
    · cases heq
  kept i _ := List.not_mem_nil

omit [DecidableEq ι] in
/-- Steps that list nothing new and release no task. -/
theorem Covered.frame (h : Covered g s) (hlisted : ∀ k i, s'.Listed k i → s.Listed k i)
    (hexposed : ∀ i, s'.Exposed g i → s.Exposed g i)
    (hserving : ∀ i, (s.links i).stage = .serving → (s'.links i).stage = .serving)
    (hreleased : s'.base.released = s.base.released) : Covered g s' where
  serving k i hi :=
    ⟨(h.serving k i (hlisted k i hi)).1, hserving i (h.serving k i (hlisted k i hi)).2⟩
  kept i hi := by
    rw [hreleased]
    exact h.kept i (hexposed i hi)

omit [DecidableEq ι] in
theorem Covered.push (h : Covered g s) (task : Task ι) : Covered g (s.push task) :=
  h.frame (fun _ _ hi => hi) (fun _ hi => hi) (fun _ hi => hi) rfl

/-- Steps of the set-up and of the connection. -/
theorem Covered.setLink (h : Covered g s) {link : Link}
    (hstage : (s.links i).stage = .serving → link.stage = .serving) :
    Covered g (s.setLink i link) := by
  refine h.frame (fun _ _ hi => hi) (fun _ hi => hi) ?_ rfl
  intro j hj
  by_cases hne : j = i
  · rw [hne, setLink_self]
    exact hstage (hne ▸ hj)
  · rw [setLink_of_ne s hne]
    exact hj

omit [DecidableEq ι] in
/-- Steps of a sub-loop that list nothing new. -/
theorem Covered.setLoop (h : Covered g s) {k : LoopId} {loop : SubLoop ι}
    (hactive : ∀ i ∈ loop.active, i ∈ (s.loops k).active)
    (hhandling : ∀ i guard, loop.handling = some (i, guard) →
      (s.loops k).handling = some (i, guard) ∨
        i ∈ (s.loops k).active) : Covered g (s.setLoop k loop) := by
  have hself : (s.setLoop k loop).loops k = loop := Function.update_self ..
  have hother : ∀ m, m ≠ k → (s.setLoop k loop).loops m = s.loops m :=
    fun m hm => Function.update_of_ne hm ..
  refine h.frame ?_ ?_ (fun _ hi => hi) rfl
  · intro m i hi
    by_cases hm : m = k
    · subst hm
      unfold Listed at hi
      rw [hself] at hi
      rcases hi with hmem | ⟨guard, heq⟩
      · exact .inl (hactive i hmem)
      · rcases hhandling i guard heq with hsame | hmem
        · exact .inr ⟨guard, hsame⟩
        · exact .inl hmem
    · unfold Listed at hi
      rwa [hother m hm] at hi
  · intro i hi
    by_cases hm : g.home i = k
    · unfold Exposed at hi ⊢
      rw [hm, hself] at hi
      rw [hm]
      rcases hi with hmem | heq
      · exact .inl (hactive i hmem)
      · rcases hhandling i false heq with hsame | hmem
        · exact .inr hsame
        · exact .inl hmem
    · unfold Exposed at hi ⊢
      rwa [hother _ hm] at hi

theorem Covered.run (h : Covered g s) : Covered g s.run := by
  unfold TcpServer.run
  cases s.base.batch with
  | nil => exact h
  | cons task rest =>
      cases task with
      | insert j =>
          have hlink : Covered g (s.setLink j { s.links j with inserted := true }) :=
            h.setLink id
          exact hlink.frame (fun _ _ hi => hi) (fun _ hi => hi) (fun _ hi => hi)
            (Mailbox.released_runNext _)
      | erase j =>
          exact h.frame (fun _ _ hi => hi) (fun _ hi => hi) (fun _ hi => hi)
            (Mailbox.released_runNext _)

/-- The poll lists connections whose erase task has not even been submitted. -/
theorem Covered.poll (h : Covered g s) (hregistered : s.Registered) {k : LoopId}
    {active : List ι} (hl : s.Possible g (.poll k active)) :
    Covered g (s.next g (.poll k active)) := by
  rcases hl with ⟨hidle, hactive⟩
  have hself : (s.next g (.poll k active)).loops k = { s.loops k with active := active } :=
    Function.update_self ..
  have hother : ∀ m, m ≠ k → (s.next g (.poll k active)).loops m = s.loops m :=
    fun m hm => Function.update_of_ne hm ..
  constructor
  · intro m i hi
    by_cases hm : m = k
    · subst hm
      unfold Listed at hi
      rw [hself, hidle] at hi
      rcases hi with hmem | ⟨guard, heq⟩
      · exact ⟨(hactive i hmem).1, (hactive i hmem).2.2.1⟩
      · cases heq
    · unfold Listed at hi
      rw [hother m hm] at hi
      exact h.serving m i hi
  · intro i hi
    by_cases hm : g.home i = k
    · unfold Exposed at hi
      rw [hm, hself, hidle] at hi
      rcases hi with hmem | heq
      · have hopen : (s.links i).conn.status ≠ .kDisConnected := by
          intro hs
          have hfd := (hactive i hmem).2.2.2
          rw [((hregistered i).link.unregistered hs).2] at hfd
          exact absurd hfd (by decide)
        have hnone := (hregistered i).tasks.not_erase
          (by rw [(hregistered i).link.closing.2 hopen]; rfl)
        intro hreleased
        exact hnone (List.mem_append_left _ hreleased)
      · cases heq
    · unfold Exposed at hi
      rw [hother _ hm] at hi
      exact h.kept i hi

/-- **Step lemma.** -/
theorem Covered.next (h : Covered g s) (hregistered : s.Registered) {l : ServerStep ι}
    (hl : s.Possible g l) (hsafe : s.ReleaseSafe g l) : Covered g (s.next g l) := by
  cases l with
  | construct i fd =>
      have hstage : (s.links i).stage ≠ .serving := by
        rw [hl.1]
        exact Stage.noConfusion
      exact (h.setLink fun heq => absurd heq hstage).setLoop (fun _ hi => hi)
        fun _ _ heq => .inl heq
  | submitInsert i =>
      have hstage : (s.links i).stage ≠ .serving := by
        rw [show (s.links i).stage = .constructed from hl]
        exact Stage.noConfusion
      exact (h.push (.insert i)).setLink fun heq => absurd heq hstage
  | resume i =>
      have hstage : (s.links i).stage ≠ .serving := by
        rw [hl.1]
        exact Stage.noConfusion
      exact h.setLink fun heq => absurd heq hstage
  | setCloseCallback i =>
      have hstage : (s.links i).stage ≠ .serving := by
        rw [show (s.links i).stage = .inserted from hl]
        exact Stage.noConfusion
      exact h.setLink fun heq => absurd heq hstage
  | finishSetUp i =>
      exact (h.setLink fun _ => rfl).setLoop (fun _ hi => hi) fun _ _ heq => .inl heq
  | work i l => exact h.setLink id
  | submitErase i => exact (h.push (.erase i)).setLink id
  | closeDone i => exact h.setLink id
  | swap => exact h.frame (fun _ _ hi => hi) (fun _ hi => hi) (fun _ hi => hi) rfl
  | run => exact h.run
  | release =>
      refine ⟨h.serving, ?_⟩
      intro i hi hreleased
      rcases List.mem_append.1 hreleased with hmem | hmem
      · exact h.kept i hi hmem
      · exact hsafe _ hmem rfl hi
  | poll k active => exact h.poll hregistered hl
  | handle k =>
      change Covered g (s.handle k)
      unfold TcpServer.handle
      cases hactive : (s.loops k).active with
      | nil => exact h
      | cons i rest =>
          apply h.setLoop
          · intro j hj
            rw [hactive]
            exact List.mem_cons_of_mem _ hj
          · intro j guard heq
            refine .inr ?_
            rw [hactive, ← (Prod.mk.inj (Option.some_inj.1 heq)).1]
            exact List.mem_cons_self ..
  | handled k =>
      refine Covered.setLoop h (fun _ hi => hi) ?_
      intro j guard heq
      cases heq

/-- A listed connection has an owner. -/
theorem Covered.alive (h : Covered g s) (hregistered : s.Registered) {k : LoopId}
    (hi : s.Listed k i) : s.Alive g i := by
  rcases h.serving k i hi with ⟨hhome, hstage⟩
  by_cases hguarded : s.Guarded g i
  · exact .inr (.inr (.inr (.inr hguarded)))
  have hexposed : s.Exposed g i := by
    unfold Exposed
    rw [hhome]
    rcases hi with hmem | ⟨guard, heq⟩
    · exact .inl hmem
    · cases guard with
      | false => exact .inr heq
      | true =>
          refine absurd ?_ hguarded
          unfold Guarded
          rw [hhome, heq]
  have htasks := (hregistered i).tasks
  have hinserted := (hregistered i).link.inserted (by rw [hstage]; rfl)
  by_cases herased : .erase i ∈ s.base.done
  · -- the erase task has run, and its batch has not been released
    rcases List.mem_append.1 herased with hmem | hmem
    · exact absurd hmem (h.kept i hexposed)
    · exact .inr (.inl ⟨.erase i, Mailbox.mem_kept.2 (.inl hmem), rfl⟩)
  · exact .inl (htasks.tcpst.2 ⟨htasks.inserted.1 hinserted, herased⟩)

/-- **When no channel is dispatched on a dead connection.**  In every run of the sub-loops
and the base loop in which no batch of the base loop is released that holds the erase
task of a connection listed and not guarded, every listed connection has an owner. -/
theorem listed_alive (g : Settings ι) (ls : List (ServerStep ι))
    (hlegal : (server g).Legal new ls) (hsafe : (server g).Each (ReleaseSafe g) new ls) :
    ∀ k i, ((server g).run new ls).Listed k i → ((server g).run new ls).Alive g i := by
  have hinv := (server g).run_invariant_each (I := fun s => s.Registered ∧ Covered g s)
    ⟨registered_new, covered_new⟩
    (fun _ _ h hl hsafe => ⟨h.1.next hl, h.2.next h.1 hl hsafe⟩) ls hlegal hsafe
  intro k i hi
  exact hinv.2.alive hinv.1 hi

end TcpServer

/-! ## Two dead connections -/

/-- One connection is accepted, set up, activated and polled. -/
def servedOnce : List (ServerStep Bool) :=
  [.construct true 5, .submitInsert true, .swap, .run, .resume true, .setCloseCallback true,
    .work true ⟨.activate, ⟨true, true⟩⟩, .finishSetUp true, .release, .poll 0 [true]]

/-- It is closed, and the base loop runs the erase task and releases it. -/
def closedOnce : List (ServerStep Bool) :=
  [.work true ⟨.close, ⟨true, true⟩⟩, .submitErase true, .closeDone true, .swap, .run,
    .release]

/-- With the heartbeat off the connection closes itself in `Handle`, which goes on with the
object destroyed; with the heartbeat on it is closed, by the timer say, before `Handle`
comes to it. -/
theorem dead_dispatch :
    (let g : Settings Bool := ⟨fun _ => 0, false, fun _ => true⟩
      let ls := servedOnce ++ [.handle 0] ++ closedOnce
      (server g).Legal .new ls ∧
        (((server g).run .new ls).loops 0).handling = some (true, false) ∧
        ¬((server g).run .new ls).Alive g true) ∧
    (let g : Settings Bool := ⟨fun _ => 0, true, fun _ => true⟩
      let ls := servedOnce ++ closedOnce
      (server g).Legal .new ls ∧ (((server g).run .new ls).loops 0).active = [true] ∧
        ¬((server g).run .new ls).Alive g true) := by
  decide

/-- With the heartbeat on the guard keeps a connection that closes itself. -/
theorem listed_alive_guarded :
    let g : Settings Bool := ⟨fun _ => 0, true, fun _ => true⟩
    ((server g).run .new (servedOnce ++ [.handle 0] ++ closedOnce)).Alive g true := by
  intro g
  exact TcpServer.listed_alive g _ (by decide) (by decide) 0 true (.inr ⟨true, by decide⟩)

end Adachi.Network
