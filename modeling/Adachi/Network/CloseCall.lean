import Adachi.Network.Ownership
import Adachi.Network.Shutdown
import Adachi.Network.SubLoops

/-!
# What `Close` waits for

`TcpServer::Close` stops the base loop and joins its thread, then stops the sub-loops and joins
theirs, and nobody can call it off.  A thread that it joins ends only if its loop sees the stop and
comes to its check of `quit_`, and a sub-loop on its way there may depend on the base loop: the
set-up of a connection waits in `SubmitAndWait` for a task of a loop that has left, and a close
callback submits to it.

## Main results

* `Housed.next`: a loop that is not in `Loop` is not busy, and every sub-loop that is there is one
  that the owner knows.
-/

namespace Adachi.Network

open Adachi.Io

/-! ## What `Close` waits for -/

/-- The owner is in `Close`. -/
def Owner.closes {ι : Type} : Owner ι → Bool
  | .joinBase _ => true
  | .stopPool _ _ => true
  | .joinPool _ _ => true
  | _ => false

/-- `Loop` has returned. -/
def Life.hasLeft : Life → Bool
  | .leaving => true
  | .ended => true
  | _ => false

namespace Lifetimes

variable {ι : Type}

/-- The sub-loops whose threads `Close` has still to join -/
def toJoin (s : Lifetimes ι) : List LoopId :=
  match s.owner with
  | .joinBase _ => s.pool
  | .stopPool _ _ => s.pool
  | .joinPool _ rest => rest
  | _ => []

/-- The sub-loops that `Close` has still to stop -/
def toStop (s : Lifetimes ι) : List LoopId :=
  match s.owner with
  | .joinBase _ => s.pool
  | .stopPool _ rest => rest
  | _ => []

/-- The loop has been stopped by `Close`, which has still to join its thread. -/
def Told (s : Lifetimes ι) : AnyLoop → Prop
  | none => ∃ destructor, s.owner = .joinBase destructor
  | some k => k ∈ s.toJoin ∧ k ∉ s.toStop

/-- No connection of the sub-loop is in the middle of its close callback. -/
def Settled (g : Settings ι) (s : Lifetimes ι) (k : LoopId) : Prop :=
  ∀ i, g.home i = k → (s.server.links i).closing.holdsSelf = false

/-- A loop was stopped before it was in `Loop`, which takes the stop back. -/
def StopLost (s : Lifetimes ι) : Prop :=
  ∃ loop, s.Told loop ∧ (s.lives loop).isUnstopped = true

/-- The set-up of a connection waits, or will wait, for a task of the base loop, which has left. -/
def SetUpWaits (s : Lifetimes ι) : Prop :=
  (s.lives none).hasLeft = true ∧
    ∃ k ∈ s.toJoin, ∃ i, (s.server.loops k).setUp = some i ∧ (s.server.links i).inserted = false

/-- A close callback is about to submit to the base loop, which is no longer there. -/
def CallbackLate (g : Settings ι) (s : Lifetimes ι) : Prop :=
  s.lives none = .ended ∧ ∃ i, g.home i ∈ s.toJoin ∧
    (s.lives (some (g.home i))).isLive = true ∧ (s.server.links i).closing = .calling

/-- A loop that `Close` is going to stop is no longer there. -/
def LoopGone (s : Lifetimes ι) : Prop := ∃ k ∈ s.toStop, (s.lives (some k)).isLive = false

/-- With the heartbeat on, every connection of the sub-loops to be joined has been asked to
close, so that the timers of these loops have nothing to close when they are destroyed. -/
def Asked (g : Settings ι) (s : Lifetimes ι) : Prop :=
  g.isheartbeat = true → ∀ i, g.home i ∈ s.toJoin → (s.server.links i).stage ≠ .accepted →
    (s.server.links i).conn.closeRequested = true

/-- Why `Close` does not return -/
def Hung (g : Settings ι) (s : Lifetimes ι) : Prop :=
  s.StopLost ∨ s.SetUpWaits ∨ s.CallbackLate g ∨ s.LoopGone

variable [DecidableEq ι]

/-- A loop leaves `Loop` because it has been stopped and between two callbacks, not because
`epoll_wait` fails, and every loop that is called is there. -/
def Proper (g : Settings ι) (s : Lifetimes ι) : LifetimeStep ι → Prop
  | .leave none => s.lives none = .looping true
  | .leave (some k) => s.lives (some k) = .looping true ∧ s.Settled g k
  | .finish (some k) => s.Settled g k
  | .server (.submitInsert _) => (s.lives none).isLive = true
  | l => ∀ u ∈ (s.next g l).uses.drop s.uses.length, u.live = true

/-- The server releases no erase task too early. -/
def ReleaseSafe (g : Settings ι) (s : Lifetimes ι) : LifetimeStep ι → Prop
  | .server l => s.server.ReleaseSafe g l
  | _ => True

instance (g : Settings ι) (s : Lifetimes ι) :
    (l : LifetimeStep ι) → Decidable (s.ReleaseSafe g l)
  | .server l => inferInstanceAs (Decidable (s.server.ReleaseSafe g l))
  | .start _ | .retire | .joinOld | .launch | .started | .close _ | .joinBase | .stopPool
  | .joinPool | .destroy _ | .enter _ | .leave _ | .finish _ => inferInstanceAs (Decidable True)

end Lifetimes

/-! ## Lives -/

/-- How a life can go on -/
structure Life.After (life life' : Life) : Prop where
  live : life'.isLive = true → life.isLive = true
  absent : life' = .absent ↔ life = .absent
  ended : life = .ended → life' = .ended

namespace Life

variable {life : Life}

theorem After.refl (life : Life) : life.After life := ⟨id, Iff.rfl, id⟩

theorem After.stop (life : Life) : life.After life.stop := by
  cases life with
  | looping quit => exact ⟨fun _ => rfl, by simp [Life.stop], by simp⟩
  | absent | constructed | leaving | ended => exact After.refl _

theorem After.enter : constructed.After (looping false) := ⟨fun _ => rfl, by simp, by simp⟩

theorem After.leave (h : life.isLooping = true) : life.After leaving := by
  cases life with
  | looping quit => exact ⟨fun _ => rfl, by simp, by simp⟩
  | absent | constructed | leaving | ended => cases h

theorem After.finish : leaving.After Life.ended := ⟨fun _ => rfl, by simp, by simp⟩

@[simp] theorem isLive_stop (life : Life) : life.stop.isLive = life.isLive := by
  cases life <;> rfl

@[simp] theorem isLooping_stop (life : Life) : life.stop.isLooping = life.isLooping := by
  cases life <;> rfl

end Life

namespace Lifetimes

variable {ι : Type} {g : Settings ι} {s s' : Lifetimes ι}

/-! ## The loops that are there -/

/-- Every loop of the list has been there, and no other sub-loop is there. -/
def Knows (s : Lifetimes ι) (ks : List LoopId) : Prop :=
  (∀ k, (s.lives (some k)).isLive = true → k ∈ ks) ∧ ∀ k ∈ ks, s.lives (some k) ≠ .absent

/-- The owner knows every sub-loop that is there. -/
def Known (s : Lifetimes ι) : Owner ι → Prop
  | .idle => s.Knows s.pool
  | .starting old rest new => rest.Nodup ∧ (∀ k ∈ rest, k ∈ new ∧ s.lives (some k) = .absent) ∧
      (∀ k ∈ new, k ∈ rest ∨ s.lives (some k) ≠ .absent) ∧
      ∀ k, (s.lives (some k)).isLive = true → k ∈ old ∨ k ∈ new
  | .joinBase _ => s.Knows s.pool
  | .stopPool _ _ => s.lives none = .ended ∧ s.Knows s.pool
  | .joinPool _ rest => s.lives none = .ended ∧ s.Knows rest ∧
      ∀ k ∈ s.pool, s.lives (some k) ≠ .absent
  | .destroying _ => True

theorem Knows.frame {ks : List LoopId} (h : s.Knows ks)
    (hlives : ∀ loop, (s.lives loop).After (s'.lives loop)) : s'.Knows ks :=
  ⟨fun k hk => h.1 k ((hlives (some k)).live hk),
    fun k hk habsent => h.2 k hk ((hlives (some k)).absent.1 habsent)⟩

/-- Lives that go on -/
theorem Known.frame {owner : Owner ι} (h : s.Known owner) (hpool : s'.pool = s.pool)
    (hlives : ∀ loop, (s.lives loop).After (s'.lives loop)) : s'.Known owner := by
  have hpresent : ∀ {k}, s.lives (some k) ≠ .absent → s'.lives (some k) ≠ .absent :=
    fun hk habsent => hk ((hlives _).absent.1 habsent)
  cases owner with
  | idle =>
      show s'.Knows s'.pool
      rw [hpool]
      exact Knows.frame h hlives
  | starting old rest new =>
      obtain ⟨hnodup, hrest, hnew, hlive⟩ := h
      exact ⟨hnodup, fun k hk => ⟨(hrest k hk).1, (hlives _).absent.2 (hrest k hk).2⟩,
        fun k hk => (hnew k hk).imp_right hpresent, fun k hk => hlive k ((hlives _).live hk)⟩
  | joinBase destructor =>
      show s'.Knows s'.pool
      rw [hpool]
      exact Knows.frame h hlives
  | stopPool destructor rest =>
      refine ⟨(hlives none).ended h.1, ?_⟩
      rw [hpool]
      exact h.2.frame hlives
  | joinPool destructor rest =>
      refine ⟨(hlives none).ended h.1, h.2.1.frame hlives, ?_⟩
      rw [hpool]
      exact fun k hk => hpresent (h.2.2 k hk)
  | destroying rest => trivial

variable [DecidableEq ι]

/-- **The invariant of all runs**, as far as it is about the loops. -/
structure Housed (g : Settings ι) (s : Lifetimes ι) : Prop where
  registered : s.server.Registered
  setUps : s.server.SetUps g
  quiet : ∀ k, (s.lives (some k)).isLooping = false → s.server.Idle k
  closings : ∃ conns : List ι, ∀ i, (s.server.links i).closing.holdsSelf = true → i ∈ conns
  base : s.lives none ≠ .absent
  owner : s.Known s.owner

/-- Only a connection that works begins a close callback. -/
theorem Housed.closings_next (h : s.Housed g) {l : ServerStep ι} (hl : s.server.Possible g l) :
    ∃ conns : List ι, ∀ i, ((s.server.next g l).links i).closing.holdsSelf = true → i ∈ conns := by
  obtain ⟨conns, hconns⟩ := h.closings
  have hnext : ∀ i, ((s.server.next g l).links i).closing.holdsSelf = true →
      i ∈ conns ∨ ∃ label, l = .work i label := by
    intro i hi
    rcases TcpServer.closing_next hl i with heq | ⟨label, hwork, _⟩ | ⟨_, hcalling, _⟩ |
      ⟨_, _, hdone⟩
    · rw [heq] at hi
      exact .inl (hconns i hi)
    · exact .inr ⟨label, hwork⟩
    · exact .inl (hconns i (by rw [hcalling]; rfl))
    · rw [hdone] at hi
      cases hi
  by_cases hwork : ∃ j label, l = .work j label
  · obtain ⟨j, label, hlabel⟩ := hwork
    refine ⟨j :: conns, fun i hi => ?_⟩
    rcases hnext i hi with hmem | ⟨other, hother⟩
    · exact List.mem_cons_of_mem _ hmem
    · rw [hlabel] at hother
      injection hother with hij
      rw [hij]
      exact List.mem_cons_self ..
  · exact ⟨conns, fun i hi => (hnext i hi).resolve_right fun hsome => hwork ⟨i, hsome⟩⟩

/-- A step of the server -/
theorem Housed.server (h : s.Housed g) {l : ServerStep ι} (hl : s.server.Possible g l)
    (hthread : s.HasThread g l) :
    Housed g { s.serverUses g l with server := s.server.next g l } := by
  rw [serverUses_eq]
  constructor
  · exact h.registered.next hl
  · exact h.setUps.next hl
  · intro k hk
    have hquiet := h.quiet k hk
    unfold TcpServer.Idle at hquiet ⊢
    rw [TcpServer.loops_next, hquiet]
    intro hloop
    have hlooping : (s.lives (some k)).isLooping = true := by
      cases l with
      | construct i fd | finishSetUp i =>
          rw [← Option.some_inj.1 hloop]
          exact hthread
      | poll m active | handle m | handled m =>
          rw [← Option.some_inj.1 hloop]
          exact hthread
      | submitInsert | resume | setCloseCallback | work | submitErase | closeDone | swap | run
      | release => cases hloop
    rw [show (s.lives (some k)).isLooping = false from hk] at hlooping
    cases hlooping
  · exact h.closings_next hl
  · exact h.base
  · exact h.owner.frame rfl fun _ => .refl _

/-- A step of the owner or of a loop, which leaves the server alone. -/
theorem Housed.ofLives (h : s.Housed g) (hserver : s'.server = s.server)
    (hquiet : ∀ k, (s'.lives (some k)).isLooping = false → s.server.Idle k)
    (hbase : s'.lives none ≠ .absent) (howner : s'.Known s'.owner) : s'.Housed g where
  registered := hserver ▸ h.registered
  setUps := hserver ▸ h.setUps
  quiet := by
    rw [hserver]
    exact hquiet
  closings := by
    rw [hserver]
    exact h.closings
  base := hbase
  owner := howner

/-- The life of a loop goes on. -/
theorem Housed.setLife (h : s.Housed g) {loop : AnyLoop} {life : Life}
    (hafter : (s.lives loop).After life)
    (hidle : ∀ k, loop = some k → life.isLooping = false → s.server.Idle k) :
    (s.setLife loop life).Housed g := by
  have hlives : ∀ other, (s.lives other).After ((s.setLife loop life).lives other) := by
    intro other
    by_cases hother : other = loop
    · rw [hother, lives_setLife_self]
      exact hafter
    · rw [lives_setLife_of_ne s hother]
      exact .refl _
  refine h.ofLives rfl ?_ ?_ (h.owner.frame rfl hlives)
  · intro k hk
    by_cases hloop : some k = loop
    · rw [hloop, lives_setLife_self] at hk
      exact hidle k hloop.symm hk
    · rw [lives_setLife_of_ne s hloop] at hk
      exact h.quiet k hk
  · exact fun habsent => h.base ((hlives none).absent.1 habsent)

theorem Housed.stop (h : s.Housed g) (loop : AnyLoop) :
    (s.setLife loop (s.lives loop).stop).Housed g := by
  apply h.setLife (.stop _)
  intro k hk hlooping
  subst hk
  exact h.quiet k ((Life.isLooping_stop _).symm.trans hlooping)

/-- Nothing of the invariant is about the calls on loops that are recorded. -/
theorem Housed.use (h : s.Housed g) (call : LoopCall) (loop : AnyLoop) :
    (s.use call loop).Housed g :=
  h.ofLives rfl h.quiet h.base (h.owner.frame rfl fun _ => .refl _)

theorem Housed.stopLoop (h : s.Housed g) (loop : AnyLoop) : (s.stopLoop loop).Housed g :=
  (h.use .stopLoop loop).stop loop

/-- The owner goes on. -/
theorem Housed.setOwner (h : s.Housed g) {owner : Owner ι} (howner : s.Known owner) :
    Housed g { s with owner := owner } :=
  h.ofLives rfl h.quiet h.base (howner.frame rfl fun _ => .refl _)

/-! ### Steps of `Start` and `Close` -/

theorem Housed.start (h : s.Housed g) {new : List LoopId} (hl : s.Possible g (.start new)) :
    (s.ownerStep (.start new)).Housed g := by
  obtain ⟨hidle, hnodup, habsent⟩ := hl
  have howner := h.owner
  rw [hidle] at howner
  exact h.setOwner ⟨hnodup, fun k hk => ⟨hk, habsent k hk⟩, fun k hk => .inl hk,
    fun k hk => .inl (howner.1 k hk)⟩

theorem Housed.retire (h : s.Housed g) : (s.ownerStep .retire).Housed g := by
  unfold ownerStep
  dsimp only
  split
  · exact h.stop _
  · exact h

theorem Housed.joinOld (h : s.Housed g) (hl : s.Possible g .joinOld) :
    (s.ownerStep .joinOld).Housed g := by
  unfold ownerStep
  dsimp only
  split
  · rename_i k old rest new hcase
    have howner := h.owner
    have hended : s.lives (some k) = .ended := hl (some k) (by rw [hcase]; rfl)
    rw [hcase] at howner
    obtain ⟨hnodup, hrest, hnew, hlive⟩ := howner
    refine h.setOwner ⟨hnodup, hrest, hnew, ?_⟩
    intro m hm
    refine (hlive m hm).imp_left fun hmem => (List.mem_cons.1 hmem).resolve_left ?_
    intro heq
    rw [heq, hended] at hm
    cases hm
  · exact h

theorem Housed.launch (h : s.Housed g) : (s.ownerStep .launch).Housed g := by
  unfold ownerStep
  dsimp only
  split
  · rename_i old k rest new hcase
    have howner := h.owner
    rw [hcase] at howner
    obtain ⟨hnodup, hrest, hnew, hlive⟩ := howner
    rw [List.nodup_cons] at hnodup
    have hk := hrest k (List.mem_cons_self ..)
    have hother : ∀ m, m ≠ k → (s.setLife (some k) .constructed).lives (some m) =
        s.lives (some m) := fun m hm => s.lives_setLife_some_of_ne hm _
    refine h.ofLives rfl ?_ ?_ ⟨hnodup.2, ?_, ?_, ?_⟩
    · intro m hm
      by_cases heq : m = k
      · subst heq
        exact h.quiet m (by rw [hk.2]; rfl)
      · exact h.quiet m (by rw [← hother m heq]; exact hm)
    · exact fun habsent => h.base ((s.lives_setLife_some k .constructed).symm.trans habsent)
    · intro m hm
      have hne : m ≠ k := fun heq => hnodup.1 (heq ▸ hm)
      have hmem := hrest m (List.mem_cons_of_mem _ hm)
      exact ⟨hmem.1, (hother m hne).trans hmem.2⟩
    · intro m hm
      by_cases heq : m = k
      · subst heq
        refine .inr fun habsent => ?_
        have hself : (s.setLife (some m) .constructed).lives (some m) = .constructed :=
          s.lives_setLife_self (some m) _
        have hneither := hself.symm.trans habsent
        cases hneither
      · refine (hnew m hm).imp (fun hmem => (List.mem_cons.1 hmem).resolve_left heq) ?_
        exact fun hpresent habsent => hpresent ((hother m heq).symm.trans habsent)
    · intro m hm
      by_cases heq : m = k
      · exact .inr (heq ▸ hk.1)
      · exact hlive m (by rw [← hother m heq]; exact hm)
  · exact h

theorem Housed.started (h : s.Housed g) : (s.ownerStep .started).Housed g := by
  unfold ownerStep
  dsimp only
  split
  · rename_i new hcase
    have howner := h.owner
    rw [hcase] at howner
    obtain ⟨_, _, hnew, hlive⟩ := howner
    refine h.ofLives rfl h.quiet h.base ⟨?_, ?_⟩
    · exact fun k hk => (hlive k hk).resolve_left List.not_mem_nil
    · exact fun k hk => (hnew k hk).resolve_left List.not_mem_nil
  · exact h

theorem Housed.close (h : s.Housed g) {destructor : Bool}
    (hl : s.Possible g (.close destructor)) :
    (s.ownerStep (.close destructor)).Housed g := by
  have hidle : s.owner = .idle := hl
  have hstopped := h.stopLoop none
  have howner : (s.stopLoop none).Known s.owner := hstopped.owner
  rw [hidle] at howner
  exact hstopped.ofLives rfl hstopped.quiet hstopped.base howner

theorem Housed.joinBase (h : s.Housed g) (hl : s.Possible g .joinBase) :
    (s.ownerStep .joinBase).Housed g := by
  unfold ownerStep
  dsimp only
  split
  · rename_i destructor hcase
    have howner := h.owner
    rw [hcase] at howner
    exact h.setOwner ⟨hl none (by rw [hcase]; rfl), howner⟩
  · exact h

theorem Housed.stopPool (h : s.Housed g) : (s.ownerStep .stopPool).Housed g := by
  unfold ownerStep
  dsimp only
  split
  · rename_i destructor k rest hcase
    have hstopped := h.stopLoop (some k)
    have howner : (s.stopLoop (some k)).Known s.owner := hstopped.owner
    rw [hcase] at howner
    exact hstopped.setOwner howner
  · rename_i destructor hcase
    have howner := h.owner
    rw [hcase] at howner
    exact h.setOwner ⟨howner.1, howner.2, howner.2.2⟩
  · exact h

theorem Housed.joinPool (h : s.Housed g) (hl : s.Possible g .joinPool) :
    (s.ownerStep .joinPool).Housed g := by
  unfold ownerStep
  dsimp only
  split
  · rename_i destructor k rest hcase
    have howner := h.owner
    have hended : s.lives (some k) = .ended := hl (some k) (by rw [hcase]; rfl)
    rw [hcase] at howner
    obtain ⟨hbase, ⟨hlive, hpresent⟩, hpool⟩ := howner
    refine h.setOwner ⟨hbase, ⟨?_, fun m hm => hpresent m (List.mem_cons_of_mem _ hm)⟩, hpool⟩
    intro m hm
    refine (List.mem_cons.1 (hlive m hm)).resolve_left ?_
    intro heq
    rw [heq, hended] at hm
    cases hm
  · exact h.setOwner trivial
  · rename_i hcase
    have howner := h.owner
    rw [hcase] at howner
    refine h.setOwner ⟨fun k hk => ?_, howner.2.2⟩
    cases howner.2.1.1 k hk
  · exact h

theorem Housed.destroy (h : s.Housed g) (i : ι) : (s.destroy i).Housed g := by
  unfold Lifetimes.destroy
  dsimp only
  split
  · split
    · exact h.setOwner trivial
    · rename_i k _
      have hused := h.use .deleteChannel (some k)
      exact hused.setOwner trivial
  · split
    · exact h
    · exact h.use _ _

/-! ### Runs -/

/-- **Step lemma.** -/
theorem Housed.next (h : s.Housed g) {l : LifetimeStep ι} (hl : s.Possible g l) :
    (s.next g l).Housed g := by
  cases l with
  | server l => exact h.server hl.1 hl.2
  | start new => exact h.start hl
  | retire => exact h.retire
  | joinOld => exact h.joinOld hl
  | launch => exact h.launch
  | started => exact h.started
  | close destructor => exact h.close hl
  | joinBase => exact h.joinBase hl
  | stopPool => exact h.stopPool
  | joinPool => exact h.joinPool hl
  | destroy i => exact h.destroy i
  | enter loop =>
      have hconstructed : s.lives loop = .constructed := hl
      apply h.setLife
      · rw [hconstructed]
        exact .enter
      · intro k _ hlooping
        cases hlooping
  | leave loop =>
      apply h.setLife (.leave hl.1)
      intro k hk _
      subst hk
      exact hl.2
  | finish loop =>
      have hleaving : s.lives loop = .leaving := hl.1
      apply h.setLife
      · rw [hleaving]
        exact .finish
      · intro k hk _
        subst hk
        exact h.quiet k (by rw [hleaving]; rfl)

/-! ## Calls on loops -/

section

variable {destructor : Bool} {rest : List LoopId}

omit [DecidableEq ι]

theorem toJoin_of_joinBase (h : s.owner = .joinBase destructor) : s.toJoin = s.pool := by
  unfold toJoin
  rw [h]

theorem toStop_of_joinBase (h : s.owner = .joinBase destructor) : s.toStop = s.pool := by
  unfold toStop
  rw [h]

theorem toJoin_of_stopPool (h : s.owner = .stopPool destructor rest) : s.toJoin = s.pool := by
  unfold toJoin
  rw [h]

theorem toStop_of_stopPool (h : s.owner = .stopPool destructor rest) : s.toStop = rest := by
  unfold toStop
  rw [h]

theorem toJoin_of_joinPool (h : s.owner = .joinPool destructor rest) : s.toJoin = rest := by
  unfold toJoin
  rw [h]

theorem toStop_of_joinPool (h : s.owner = .joinPool destructor rest) : s.toStop = [] := by
  unfold toStop
  rw [h]

theorem not_told_none
    (h : s.owner = .stopPool destructor rest ∨ s.owner = .joinPool destructor rest) :
    ¬s.Told none := by
  rintro ⟨other, heq⟩
  rcases h with hcase | hcase
  · rw [hcase] at heq
    cases heq
  · rw [hcase] at heq
    cases heq

end

/-! ## Steps of `Close` -/

omit [DecidableEq ι] in
theorem stopLoop_lives_self (s : Lifetimes ι) (loop : AnyLoop) :
    (s.stopLoop loop).lives loop = (s.lives loop).stop :=
  lives_setLife_self (s.use .stopLoop loop) loop _

omit [DecidableEq ι] in
theorem stopLoop_lives_of_ne (s : Lifetimes ι) {loop other : AnyLoop} (hne : other ≠ loop) :
    (s.stopLoop loop).lives other = s.lives other :=
  lives_setLife_of_ne (s.use .stopLoop loop) hne _

omit [DecidableEq ι] in
/-- `StopLoop` ends no loop. -/
theorem stopLoop_isLive (s : Lifetimes ι) (loop other : AnyLoop) :
    ((s.stopLoop loop).lives other).isLive = (s.lives other).isLive := by
  by_cases heq : other = loop
  · rw [heq, stopLoop_lives_self, Life.isLive_stop]
  · rw [stopLoop_lives_of_ne s heq]

section

variable {destructor : Bool} {rest : List LoopId}

omit [DecidableEq ι] in
/-- Nothing is left to stop or to join. -/
theorem toJoin_of_returned (h : s.owner.closes = false) :
    s.toJoin = [] ∧ s.toStop = [] ∧ ∀ loop, ¬s.Told loop := by
  cases hcase : s.owner with
  | joinBase | stopPool | joinPool =>
      rw [hcase] at h
      cases h
  | idle | starting | destroying =>
      have hjoin : s.toJoin = [] := by
        unfold toJoin
        rw [hcase]
      refine ⟨hjoin, ?_, ?_⟩
      · unfold toStop
        rw [hcase]
      · rintro (_ | k) htold
        · obtain ⟨destructor, heq⟩ := htold
          rw [hcase] at heq
          cases heq
        · rw [Told, hjoin] at htold
          cases htold.1

end

omit [DecidableEq ι] in
theorem uses_of_use (s : Lifetimes ι) (call : LoopCall) (loop : AnyLoop) :
    (∀ u ∈ (s.use call loop).uses.drop s.uses.length, u.live = true) ↔
      (s.lives loop).isLive = true := by
  rw [show (s.use call loop).uses = s.uses ++ [⟨call, loop, (s.lives loop).isLive⟩] from rfl,
    List.drop_left]
  simp

theorem proper_submitErase {i : ι} :
    s.Proper g (.server (.submitErase i)) ↔ (s.lives none).isLive = true :=
  s.uses_of_use .submit none

theorem proper_stopPool {destructor : Bool} {k : LoopId} {rest : List LoopId}
    (howner : s.owner = .stopPool destructor (k :: rest)) :
    s.Proper g .stopPool ↔ (s.lives (some k)).isLive = true := by
  rw [← s.uses_of_use .stopLoop (some k)]
  show (∀ u ∈ (s.ownerStep .stopPool).uses.drop s.uses.length, u.live = true) ↔ _
  unfold ownerStep
  dsimp only
  rw [howner]
  rfl

end Lifetimes

end Adachi.Network
