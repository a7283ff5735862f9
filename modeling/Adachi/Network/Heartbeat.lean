import Adachi.Io.Timer
import Adachi.Network.Conversation

/-!
# The heartbeat of the connections of a loop

A loop with a `Timer`: the kernel counts the time slices that have passed, the read callback of
the timer's channel reads the counter and ticks so many times, and a tick destroys the heartbeat
objects whose slot it clears, each of which asks its connection to close.  A `Read` that gets
bytes puts the heartbeat of its connection into the wheel again.

`SaveLifeMechanism` makes a heartbeat object at every call, and only the last one is put into the
wheel again: the others run out, whatever the connection reads.

The wheel is the machine of `Adachi.Io.Timer` and the connections are those of
`Adachi.Network.ConnectionRuns`; both are driven by the steps of the loop.

## Main results

* `slices_ticked`: no time slice is lost.
* `idle_closed`: a connection that reads nothing for as many slices as the wheel has slots leaves
  `kConnecting`.
* `closes_only_idle`: and a tick closes no other, unless an older heartbeat object runs out.
-/

namespace Adachi.Network

open Adachi.Io

/-! ## The machine -/

/-- The heartbeat object that a call of `SaveLifeMechanism` makes: the connection, and how many
such objects it has had before -/
abbrev HeartBeatObj (ι : Type) := ι × Nat

/-- `counter` are the time slices that the timer's descriptor has counted, `due` the turns that
the `for` loop of its read callback has still to make, `saved` counts the heartbeat objects that
`SaveLifeMechanism` has made for a connection, and `submitted` says that the task of a `Close` on
another thread has still to run. -/
structure HeartbeatLoop (ι : Type) where
  timer : Timer (HeartBeatObj ι)
  counter : Nat
  due : Nat
  saved : ι → Nat
  submitted : ι → Bool
  conns : ι → TcpConnection

/-- `read` is a `Read` in which `ReadFd` returns `n`; what the message handler does is a `call`
of its own, like all that other callbacks and threads do to a connection.  `slice` is a time
slice that passes.  In `tick`, `connected` tells which connections still exist, and `ctl` how the
`epoll_ctl` calls of their `Close` end. -/
inductive HeartbeatStep (ι : Type) where
  | saveLifeMechanism (i : ι)
  | read (i : ι) (n : SysResult Nat) (ctl : EpollCtl)
  | call (i : ι) (l : Label)
  | slice
  | timerRead (times : SysResult Nat)
  | tick (connected : ι → Bool) (ctl : ι → EpollCtl)

namespace HeartbeatLoop

variable {ι : Type} [DecidableEq ι]

/-- A loop whose wheel has `heartbeatNum` slots, with new connections that have no heartbeat
yet. -/
def start (heartbeatNum : Nat) (loop : LoopId) (fd : ι → Nat) (size : Nat)
    (callback : Bool) (added : ι → Bool) : HeartbeatLoop ι where
  timer := Timer.new heartbeatNum
  counter := 0
  due := 0
  saved := fun _ => 0
  submitted := fun _ => false
  conns := fun i => TcpConnection.new loop (fd i) size callback (added i)

/-- `heartbeat_ptr_.lock()`, of the pointer to the last object made -/
def heartbeat (s : HeartbeatLoop ι) (i : ι) : Option (HeartBeatObj ι) :=
  match s.saved i with
  | 0 => none
  | n + 1 => if (i, n) ∈ s.timer.destroyed then none else some (i, n)

/-- What a step does to the wheel -/
def wheelSteps (s : HeartbeatLoop ι) : HeartbeatStep ι → List (TimerStep (HeartBeatObj ι))
  | .saveLifeMechanism i => [.insert (i, s.saved i)]
  | .read i (.ok n) _ =>
      if (s.conns i).status = .kConnecting ∧ 0 < n then
        (s.heartbeat i).toList.map .insert
      else []
  | .tick connected _ => [.tick fun obj => connected obj.1]
  | _ => []

/-- What a step does to the connection `i`; in a tick, each of its objects that are destroyed
asks it to close. -/
def connSteps (i : ι) (s : HeartbeatLoop ι) : HeartbeatStep ι → List Label
  | .read j n ctl =>
      if j ≠ i ∨ (s.conns j).status ≠ .kConnecting then []
      else
        match n with
        | .ok 0 => [⟨.close, ctl⟩]
        | .ok _ => []
        | .error e => if e.retryable then [] else [⟨.close, ctl⟩]
  | .call j l => if j ≠ i then [] else [l]
  | .tick connected ctl =>
      ((s.timer.closes (.tick fun obj => connected obj.1)).filter (·.1 = i)).map
        fun _ => ⟨.close, ctl i⟩
  | _ => []

/-- `Close` on another thread submits a task, unless the connection has been asked before. -/
def submit (s : HeartbeatLoop ι) (i : ι) (l : Label) : ι → Bool :=
  match l.op with
  | .requestClose =>
      Function.update s.submitted i (s.submitted i || !(s.conns i).closeRequested)
  | .closeInThread => Function.update s.submitted i false
  | _ => s.submitted

def step (s : HeartbeatLoop ι) (l : HeartbeatStep ι) : HeartbeatLoop ι where
  timer := (wheel (HeartBeatObj ι)).run s.timer (s.wheelSteps l)
  conns := fun i => connection.run (s.conns i) (s.connSteps i l)
  counter :=
    match l with
    | .slice => s.counter + 1
    | .timerRead (.ok _) => 0
    | _ => s.counter
  due :=
    match l with
    | .timerRead (.ok times) => times
    | .tick _ _ => s.due - 1
    | _ => s.due
  saved :=
    match l with
    | .saveLifeMechanism i => Function.update s.saved i (s.saved i + 1)
    | _ => s.saved
  submitted :=
    match l with
    | .call i l => s.submit i l
    | _ => s.submitted

/-- The loop of the timer's callback runs on the thread that reads.  The timer's descriptor gives
all that it has counted, and nothing if that is zero.  `SaveLifeMechanism` finds the timer through
the owner of the channel, at which it does not look whether it is null. -/
def Possible (s : HeartbeatLoop ι) : HeartbeatStep ι → Prop
  | .saveLifeMechanism i => s.due = 0 ∧ (s.conns i).channel.owner.isSome = true
  | .read _ _ _ => s.due = 0
  | .call i l => (s.conns i).Possible l
  | .slice => True
  | .timerRead (.ok times) => s.due = 0 ∧ times = s.counter ∧ 0 < times
  | .timerRead (.error e) => s.due = 0 ∧ e.retryable = true
  | .tick _ _ => 0 < s.due

instance (s : HeartbeatLoop ι) : (l : HeartbeatStep ι) → Decidable (s.Possible l)
  | .saveLifeMechanism i =>
      inferInstanceAs (Decidable (s.due = 0 ∧ (s.conns i).channel.owner.isSome = true))
  | .read _ _ _ => inferInstanceAs (Decidable (s.due = 0))
  | .call i l => inferInstanceAs (Decidable ((s.conns i).Possible l))
  | .slice => inferInstanceAs (Decidable True)
  | .timerRead (.ok times) =>
      inferInstanceAs (Decidable (s.due = 0 ∧ times = s.counter ∧ 0 < times))
  | .timerRead (.error e) => inferInstanceAs (Decidable (s.due = 0 ∧ e.retryable = true))
  | .tick _ _ => inferInstanceAs (Decidable (0 < s.due))

end HeartbeatLoop

variable {ι : Type} [DecidableEq ι]

def heartbeatLoop (ι : Type) [DecidableEq ι] : Machine (HeartbeatLoop ι) (HeartbeatStep ι) where
  next := HeartbeatLoop.step
  enabled := HeartbeatLoop.Possible

instance (s : HeartbeatLoop ι) (l : HeartbeatStep ι) :
    Decidable ((heartbeatLoop ι).enabled s l) :=
  inferInstanceAs (Decidable (s.Possible l))

namespace HeartbeatLoop

/-! ## The wheel and the connections in a run -/

/-- An object is in the wheel, or was, if it has been made. -/
def Counted (s : HeartbeatLoop ι) : Prop :=
  ∀ obj : HeartBeatObj ι, obj ∈ s.timer.destroyed ∨ s.timer.Holds obj → obj.2 < s.saved obj.1

omit [DecidableEq ι] in
theorem counted_start (heartbeatNum : Nat) (loop : LoopId) (fd : ι → Nat) (size : Nat)
    (callback : Bool) (added : ι → Bool) :
    (start heartbeatNum loop fd size callback added).Counted := by
  rintro obj (hdestroyed | ⟨slot, hslot, hobj⟩)
  · cases hdestroyed
  · rw [List.eq_of_mem_replicate hslot] at hobj
    cases hobj

omit [DecidableEq ι] in
theorem mem_modify_append {κ : Type} {slots : List (List κ)} {pos : Nat} {obj other : κ}
    {slot : List κ} (h : slot ∈ slots.modify pos (· ++ [obj])) (hother : other ∈ slot) :
    other = obj ∨ ∃ old ∈ slots, other ∈ old := by
  obtain ⟨n, hn⟩ := List.mem_iff_getElem?.1 h
  rw [List.getElem?_modify] at hn
  obtain ⟨old, hold, hsame⟩ := Option.map_eq_some_iff.1 hn
  have hmem : old ∈ slots := List.mem_of_getElem? hold
  by_cases hpos : pos = n
  · rw [if_pos hpos] at hsame
    rw [← hsame, List.mem_append, List.mem_singleton] at hother
    exact hother.symm.imp id fun hin => ⟨old, hmem, hin⟩
  · rw [if_neg hpos] at hsame
    exact .inr ⟨old, hmem, hsame ▸ hother⟩

omit [DecidableEq ι] in
theorem holds_insertInThread {κ : Type} [DecidableEq κ] {t : Timer κ} {obj other : κ}
    (h : (t.insertInThread obj).Holds other) : other = obj ∨ t.Holds other := by
  by_cases hpos : t.lastInsertPos obj = t.insertPos
  · rw [Timer.insertInThread_of_eq hpos] at h
    exact .inr h
  · rw [Timer.insertInThread_of_ne hpos] at h
    obtain ⟨slot, hslot, hother⟩ := h
    dsimp only at hslot
    exact mem_modify_append hslot hother

omit [DecidableEq ι] in
@[simp] theorem destroyed_insertInThread {κ : Type} [DecidableEq κ] (t : Timer κ) (obj : κ) :
    (t.insertInThread obj).destroyed = t.destroyed := by
  unfold Timer.insertInThread
  split
  · rfl
  · rfl

omit [DecidableEq ι] in
theorem holds_of_expiring {κ : Type} [DecidableEq κ] {t : Timer κ} {obj : κ}
    (h : obj ∈ t.expiring) : t.Holds obj := by
  have hmem := (Timer.mem_expiring.1 h).1
  rw [List.getD_eq_getElem?_getD] at hmem
  cases hslot : t.timerwheelSt[t.ptr.toNat]? with
  | none =>
      rw [hslot] at hmem
      cases hmem
  | some slot =>
      rw [hslot] at hmem
      exact ⟨slot, List.mem_of_getElem? hslot, hmem⟩

/-- An object that has been made is put into the wheel. -/
theorem Counted.insert {s s' : HeartbeatLoop ι} (h : s.Counted) (obj : HeartBeatObj ι)
    (htimer : s'.timer = s.timer.insertInThread obj) (hobj : obj.2 < s'.saved obj.1)
    (hsaved : ∀ i, s.saved i ≤ s'.saved i) : s'.Counted := by
  intro other hother
  rw [htimer, destroyed_insertInThread] at hother
  rcases hother with hdestroyed | hholds
  · exact Nat.lt_of_lt_of_le (h other (.inl hdestroyed)) (hsaved _)
  · rcases holds_insertInThread hholds with heq | hbefore
    · rw [heq]
      exact hobj
    · exact Nat.lt_of_lt_of_le (h other (.inr hbefore)) (hsaved _)

theorem heartbeat_eq_some {s : HeartbeatLoop ι} {i : ι} {obj : HeartBeatObj ι}
    (h : s.heartbeat i = some obj) : obj.2 < s.saved obj.1 ∧ obj ∉ s.timer.destroyed := by
  unfold heartbeat at h
  split at h
  · cases h
  · rename_i n hsaved
    split at h
    · cases h
    · rename_i halive
      obtain rfl := Option.some.inj h
      exact ⟨by rw [hsaved]; exact Nat.lt_succ_self n, halive⟩

/-- **Step lemma.** -/
theorem Counted.next {s : HeartbeatLoop ι} (h : s.Counted) (l : HeartbeatStep ι) :
    (s.step l).Counted := by
  cases l with
  | saveLifeMechanism i =>
      refine h.insert (i, s.saved i) rfl ?_ fun j => ?_
      · show s.saved i < Function.update s.saved i (s.saved i + 1) i
        rw [Function.update_self]
        exact Nat.lt_succ_self _
      · show s.saved j ≤ Function.update s.saved i (s.saved i + 1) j
        by_cases hj : j = i
        · subst hj
          rw [Function.update_self]
          exact Nat.le_succ _
        · rw [Function.update_of_ne hj]
  | read i n ctl =>
      cases n with
      | error e => exact h
      | ok n =>
          have htimer : (s.step (.read i (.ok n) ctl)).timer =
              (wheel (HeartBeatObj ι)).run s.timer (ite _ _ _) := rfl
          split at htimer
          · cases hheartbeat : s.heartbeat i with
            | none =>
                rw [hheartbeat] at htimer
                intro other hother
                rw [htimer] at hother
                exact h other hother
            | some obj =>
                rw [hheartbeat] at htimer
                exact h.insert _ htimer (heartbeat_eq_some hheartbeat).1 fun _ => Nat.le_refl _
          · intro other hother
            rw [htimer] at hother
            exact h other hother
  | tick connected ctl =>
      have hset : ∀ other, (s.timer.tick).Holds other → s.timer.Holds other := by
        rintro other ⟨slot, hslot, hother⟩
        rcases List.mem_or_eq_of_mem_set hslot with hmem | hnil
        · exact ⟨slot, hmem, hother⟩
        · rw [hnil] at hother
          cases hother
      rintro other (hdestroyed | hholds)
      · rcases List.mem_append.1 hdestroyed with hbefore | hexpiring
        · exact h other (.inl hbefore)
        · exact h other (.inr (holds_of_expiring hexpiring))
      · exact h other (.inr (hset other hholds))
  | call i l | slice | timerRead times => exact h

theorem wheel_driven :
    ((heartbeatLoop ι).within Counted).Drives (wheel (HeartBeatObj ι)) timer wheelSteps where
  next _ _ := rfl
  legal s l hl := by
    obtain ⟨hcounted, hl⟩ := hl
    cases l with
    | saveLifeMechanism i =>
        exact ⟨fun hdestroyed => Nat.lt_irrefl _ (hcounted _ (.inl hdestroyed)), trivial⟩
    | read i n ctl =>
        cases n with
        | error e => exact trivial
        | ok n =>
            show (wheel (HeartBeatObj ι)).Legal s.timer (ite _ _ _)
            split
            · cases hheartbeat : s.heartbeat i with
              | none => exact trivial
              | some obj => exact ⟨(heartbeat_eq_some hheartbeat).2, trivial⟩
            · exact trivial
    | tick connected ctl => exact ⟨trivial, trivial⟩
    | call i l | slice | timerRead times => exact trivial

/-- The wheel's part of a run -/
abbrev wheelRun (s : HeartbeatLoop ι) (ls : List (HeartbeatStep ι)) :
    List (TimerStep (HeartBeatObj ι)) :=
  (heartbeatLoop ι).collect wheelSteps s ls

/-! ## Time slices -/

/-- How many time slices have passed -/
def slices : List (HeartbeatStep ι) → Nat
  | [] => 0
  | .slice :: ls => slices ls + 1
  | _ :: ls => slices ls

omit [DecidableEq ι] in
theorem slices_concat (ls : List (HeartbeatStep ι)) (l : HeartbeatStep ι) :
    slices (ls ++ [l]) = slices ls + slices [l] := by
  induction ls with
  | nil => exact (Nat.zero_add _).symm
  | cons k ls ih =>
      cases k with
      | slice =>
          show slices (ls ++ [l]) + 1 = slices ls + 1 + slices [l]
          omega
      | saveLifeMechanism i => exact ih
      | read i n ctl => exact ih
      | call i l => exact ih
      | timerRead times => exact ih
      | tick connected ctl => exact ih

variable {N : Nat} {loop : LoopId} {fd : ι → Nat} {size : Nat} {callback : Bool}
  {added : ι → Bool}

theorem ticks_add_due (ls : List (HeartbeatStep ι))
    (hlegal : (heartbeatLoop ι).Legal (start N loop fd size callback added) ls) :
    let s := (heartbeatLoop ι).run (start N loop fd size callback added) ls
    Timer.ticks (wheelRun (start N loop fd size callback added) ls) + s.due + s.counter =
      slices ls := by
  refine (heartbeatLoop ι).run_invariant_history (I := fun ls s =>
    Timer.ticks (wheelRun (start N loop fd size callback added) ls) + s.due + s.counter =
      slices ls) rfl ?_ ls hlegal
  intro ls l hlegal h
  have hpossible := hlegal.enabled_at
  have hticks : Timer.ticks (wheelRun (start N loop fd size callback added) (ls ++ [l])) =
      Timer.ticks (wheelRun (start N loop fd size callback added) ls) +
        Timer.ticks
          (((heartbeatLoop ι).run (start N loop fd size callback added) ls).wheelSteps l) := by
    rw [wheelRun, Machine.collect_concat, Timer.ticks_append]
  rw [hticks, slices_concat]
  generalize Timer.ticks (wheelRun (start N loop fd size callback added) ls) = done at h ⊢
  generalize (heartbeatLoop ι).run (start N loop fd size callback added) ls = s
    at h hpossible ⊢
  cases l with
  | saveLifeMechanism i => exact h
  | read i n ctl =>
      have hnone : Timer.ticks (s.wheelSteps (.read i n ctl)) = 0 := by
        cases n with
        | error e => rfl
        | ok n =>
            show Timer.ticks (ite _ _ _) = 0
            split
            · cases s.heartbeat i with
              | none => rfl
              | some obj => rfl
            · rfl
      rw [hnone]
      exact h
  | call i l => exact h
  | slice =>
      show _ + 0 + s.due + (s.counter + 1) = _ + 1
      omega
  | timerRead times =>
      cases times with
      | error e => exact h
      | ok times =>
          obtain ⟨hdue, htimes, _⟩ := hpossible
          show _ + 0 + times + 0 = _ + 0
          omega
  | tick connected ctl =>
      have hdue : 0 < s.due := hpossible
      show _ + 1 + (s.due - 1) + s.counter = _ + 0
      omega

/-- **No time slice is lost.**  In every run, however the reads of the timer's descriptor fall
and fail, the ticks of the wheel, those that the callback has still to make and the slices that
are counted and not read are together the time slices that have passed. -/
theorem slices_ticked (ls : List (HeartbeatStep ι))
    (hlegal : (heartbeatLoop ι).Legal (start N loop fd size callback added) ls) :
    let s := (heartbeatLoop ι).run (start N loop fd size callback added) ls
    Timer.ticks (wheelRun (start N loop fd size callback added) ls) + s.due + s.counter =
      slices ls :=
  ticks_add_due ls hlegal

/-! ## Idle connections -/

/-- The connection exists when a tick destroys one of its heartbeat objects. -/
def Present (i : ι) : HeartbeatStep ι → Prop
  | .tick connected _ => connected i = true
  | _ => True

theorem counted_run (ls : List (HeartbeatStep ι)) :
    ((heartbeatLoop ι).run (start N loop fd size callback added) ls).Counted := by
  induction ls using List.reverseRecOn with
  | nil => exact counted_start N loop fd size callback added
  | append_singleton ls l ih =>
      rw [Machine.run_concat]
      exact ih.next l

theorem keeps (hN : 0 < N) (hN' : N < 2 ^ 31) {ls : List (HeartbeatStep ι)}
    (hlegal : (heartbeatLoop ι).Legal (start N loop fd size callback added) ls) :
    Timer.Keeps N (wheelRun (start N loop fd size callback added) ls)
      ((heartbeatLoop ι).run (start N loop fd size callback added) ls).timer := by
  have hwithin := Machine.Legal.within _ (counted_start N loop fd size callback added)
    (fun _ l h _ => Counted.next h l) hlegal
  have hrun := wheel_driven.run (start N loop fd size callback added) ls
  have hwheel := wheel_driven.legal_run hwithin
  rw [Machine.collect_within] at hrun hwheel
  rw [Machine.run_within] at hrun
  rw [hrun]
  exact Timer.keeps_run hN hN' _ hwheel

/-- A destroyed heartbeat object has asked its connection to close. -/
theorem closeRequested_of_destroyed {i : ι} {n : Nat} {ls : List (HeartbeatStep ι)}
    (hpresent : ∀ l ∈ ls, Present i l) :
    (i, n) ∈ ((heartbeatLoop ι).run (start N loop fd size callback added) ls).timer.destroyed →
      (((heartbeatLoop ι).run (start N loop fd size callback added) ls).conns i).closeRequested =
        true := by
  induction ls using List.reverseRecOn with
  | nil => exact fun h => nomatch h
  | append_singleton ls l ih =>
      rw [Machine.run_concat]
      have hbefore := ih fun l hl => hpresent l (List.mem_append_left _ hl)
      have hlast := hpresent l (List.mem_append_right _ (List.mem_singleton_self l))
      generalize (heartbeatLoop ι).run (start N loop fd size callback added) ls = s at hbefore ⊢
      have hkept : (i, n) ∈ s.timer.destroyed → ((s.step l).conns i).closeRequested = true :=
        fun h => TcpConnection.run_closeRequested (hbefore h) _
      change (i, n) ∈ ((wheel (HeartBeatObj ι)).run s.timer (s.wheelSteps l)).destroyed → _
      cases l with
      | saveLifeMechanism j =>
          intro h
          exact hkept (destroyed_insertInThread s.timer _ ▸ h)
      | read j m ctl =>
          intro h
          apply hkept
          cases m with
          | error e => exact h
          | ok m =>
              change (i, n) ∈ ((wheel (HeartBeatObj ι)).run s.timer (ite _ _ _)).destroyed at h
              split at h
              · cases hheartbeat : s.heartbeat j with
                | none =>
                    rw [hheartbeat] at h
                    exact h
                | some obj =>
                    rw [hheartbeat] at h
                    exact destroyed_insertInThread s.timer obj ▸ h
              · exact h
      | tick connected ctl =>
          intro h
          by_cases hdestroyed : (i, n) ∈ s.timer.destroyed
          · exact hkept hdestroyed
          · have hexpiring := (List.mem_append.1 h).resolve_left hdestroyed
            have hcloses : (i, n) ∈ s.timer.closes (.tick fun obj => connected obj.1) :=
              List.mem_filter.2 ⟨hexpiring, hlast⟩
            have hown : (i, n) ∈ (s.timer.closes (.tick fun obj => connected obj.1)).filter
                (·.1 = i) := List.mem_filter.2 ⟨hcloses, decide_eq_true rfl⟩
            obtain ⟨before, after, hsplit⟩ := List.append_of_mem hown
            show (connection.run (s.conns i) (List.map _ _)).closeRequested = true
            rw [hsplit, List.map_append, List.map_cons, Machine.run_append, Machine.run_cons]
            exact TcpConnection.run_closeRequested (TcpConnection.close_closeRequested ..) _
      | call j l => exact hkept
      | slice => exact hkept
      | timerRead times => exact hkept

/-- The connection has left `kConnecting` if it has been asked to close, but for a request of
another thread whose task has still to run. -/
structure Answers (s : HeartbeatLoop ι) (i : ι) : Prop where
  sound : (s.conns i).Sound
  asked : s.submitted i = false → (s.conns i).Asked

omit [DecidableEq ι] in
/-- A step that hands no request of another thread to the connection -/
theorem Answers.run {s s' : HeartbeatLoop ι} {i : ι} (h : s.Answers i) (ls : List Label)
    (hconn : s'.conns i = connection.run (s.conns i) ls)
    (hown : ∀ l ∈ ls, l.op ≠ .requestClose)
    (hsubmitted : s'.submitted i = s.submitted i) : s'.Answers i where
  sound := by
    rw [hconn]
    exact h.sound.run ls
  asked := by
    rw [hconn, hsubmitted]
    exact fun hnone => (h.sound.asked_run (h.asked hnone) hown).2

theorem Answers.call {s : HeartbeatLoop ι} {i : ι} (h : s.Answers i) (l : Label) :
    (s.step (.call i l)).Answers i := by
  have hrun : (s.step (.call i l)).conns i = connection.run (s.conns i) [l] :=
    congrArg _ (if_neg (not_not.2 rfl))
  have hconn : (s.step (.call i l)).conns i = (s.conns i).step l := hrun
  have hsubmitted : (s.step (.call i l)).submitted = s.submit i l := rfl
  have hsound := h.sound.step l
  obtain ⟨op, ctl⟩ := l
  cases op with
  | requestClose =>
      refine ⟨hconn ▸ hsound, ?_⟩
      rw [hsubmitted, hconn]
      show Function.update s.submitted i (s.submitted i || !(s.conns i).closeRequested) i = false →
        _
      rw [Function.update_self, Bool.or_eq_false_iff, Bool.not_eq_false']
      rintro ⟨hnone, hrequested⟩ _
      exact h.asked hnone hrequested
  | closeInThread =>
      refine ⟨hconn ▸ hsound, fun _ _ => ?_⟩
      rw [hconn]
      exact TcpConnection.closeInThread_status _ ctl
  | activate | activateInThread | write | writeInThread | writeFd | close =>
      refine h.run _ hrun (fun l hl => ?_) rfl
      rw [List.mem_singleton.1 hl]
      exact Op.noConfusion

/-- **Step lemma.** -/
theorem Answers.next {s : HeartbeatLoop ι} {i : ι} (h : s.Answers i) (l : HeartbeatStep ι) :
    (s.step l).Answers i := by
  have hclose : ∀ ctl, ∀ k ∈ [(⟨.close, ctl⟩ : Label)], k.op ≠ .requestClose := by
    intro ctl k hk
    rw [List.mem_singleton.1 hk]
    exact Op.noConfusion
  cases l with
  | read j n ctl =>
      refine h.run _ rfl ?_ rfl
      show ∀ k ∈ ite _ _ _, _
      split
      · exact List.forall_mem_nil _
      · split
        · exact hclose _
        · exact List.forall_mem_nil _
        · split
          · exact List.forall_mem_nil _
          · exact hclose _
  | call j l =>
      by_cases hj : j = i
      · subst hj
        exact h.call l
      · refine h.run [] (congrArg _ (if_pos hj)) (List.forall_mem_nil _) ?_
        have hother : ∀ b, Function.update s.submitted j b i = s.submitted i :=
          fun _ => Function.update_of_ne (Ne.symm hj) ..
        show s.submit j l i = s.submitted i
        obtain ⟨op, ctl⟩ := l
        cases op with
        | requestClose | closeInThread => exact hother _
        | activate | activateInThread | write | writeInThread | writeFd | close => rfl
  | tick connected ctl =>
      refine h.run _ rfl ?_ rfl
      intro k hk
      obtain ⟨obj, _, heq⟩ := List.mem_map.1 hk
      rw [← heq]
      exact Op.noConfusion
  | saveLifeMechanism j => exact h.run [] rfl (List.forall_mem_nil _) rfl
  | slice => exact h.run [] rfl (List.forall_mem_nil _) rfl
  | timerRead times => exact h.run [] rfl (List.forall_mem_nil _) rfl

/-- **Run lemma.** -/
theorem answers_run (ls : List (HeartbeatStep ι)) (i : ι) :
    ((heartbeatLoop ι).run (start N loop fd size callback added) ls).Answers i := by
  induction ls using List.reverseRecOn with
  | nil => exact ⟨TcpConnection.sound_new .., fun _ h => nomatch h⟩
  | append_singleton ls l ih =>
      rw [Machine.run_concat]
      exact ih.next l

/-- **Idle connections are closed, in time.**  In every run, take a heartbeat object that was put
into the wheel last after `c` ticks, by `SaveLifeMechanism` or by a `Read` that got bytes.  Once
`c + N` time slices have passed, not counting those for which the timer's callback has still to
tick, its connection has been asked to close, if it still exists; and it has left `kConnecting`,
unless another thread asked first and the task of its `Close` has still to run. -/
theorem idle_closed (hN : 0 < N) (hN' : N < 2 ^ 31) (ls : List (HeartbeatStep ι))
    (hlegal : (heartbeatLoop ι).Legal (start N loop fd size callback added) ls) {i : ι} {n : Nat}
    (hpresent : ∀ l ∈ ls, Present i l) {c : Nat}
    (hlast :
      Timer.lastInsert (i, n) (wheelRun (start N loop fd size callback added) ls) = some c) :
    let s := (heartbeatLoop ι).run (start N loop fd size callback added) ls
    c + N + s.due + s.counter ≤ slices ls →
      (s.conns i).closeRequested = true ∧
        (s.submitted i = false → (s.conns i).status ≠ .kConnecting) := by
  intro s hidle
  have hslices := ticks_add_due ls hlegal
  have hticks : c + N ≤ Timer.ticks (wheelRun (start N loop fd size callback added) ls) := by
    change _ + s.due + s.counter = _ at hslices
    omega
  have hdestroyed := ((keeps hN hN' hlegal).timed (i, n) c hlast).destroyed.2 hticks
  have hrequested := closeRequested_of_destroyed hpresent hdestroyed
  exact ⟨hrequested, fun hnone => (answers_run ls i).asked hnone hrequested⟩

/-- A tick asks only those connections to close of which a heartbeat object has been in the wheel
for `N` ticks. -/
theorem expired_of_tick (hN : 0 < N) {s : HeartbeatLoop ι} {ops : List (TimerStep (HeartBeatObj ι))}
    (hkeeps : Timer.Keeps N ops s.timer) (hcounted : s.Counted) {connected : ι → Bool}
    {ctl : ι → EpollCtl} {i : ι} (hsome : s.connSteps i (.tick connected ctl) ≠ []) :
    ∃ n c, connected i = true ∧ n < s.saved i ∧ Timer.lastInsert (i, n) ops = some c ∧
      c + N = Timer.ticks ops + 1 ∧ (s.saved i = 1 → s.heartbeat i = some (i, n)) := by
  obtain ⟨label, hlabel⟩ := List.exists_mem_of_ne_nil _ hsome
  obtain ⟨⟨j, n⟩, hown, _⟩ := List.mem_map.1 hlabel
  obtain ⟨hcloses, hj⟩ := List.mem_filter.1 hown
  obtain rfl : j = i := of_decide_eq_true hj
  unfold Timer.closes at hcloses
  obtain ⟨hexpiring, hconnected⟩ := List.mem_filter.1 hcloses
  obtain ⟨c, hc, hnow⟩ := (hkeeps.mem_expiring_iff hN).1 hexpiring
  have hmade : n < s.saved j := hcounted _ (.inr (holds_of_expiring hexpiring))
  refine ⟨n, c, hconnected, hmade, hc, hnow, fun hone => ?_⟩
  have hzero : n = 0 := by omega
  have halive : (j, n) ∉ s.timer.destroyed := by
    intro hdestroyed
    have hlate := (hkeeps.timed (j, n) c hc).destroyed.1 hdestroyed
    omega
  subst hzero
  unfold heartbeat
  rw [hone]
  exact if_neg halive

/-- **And no others.**  In every run, the step in which a connection is first asked to close is a
call on it, a `Read` that meets the end of the stream or fails, or a tick: the one `N` ticks after
the last that one of its heartbeat objects was put into the wheel.  Where `SaveLifeMechanism` has
been called once, this is the object that each `Read` puts into the wheel again. -/
theorem closes_only_idle (hN : 0 < N) (hN' : N < 2 ^ 31) (ls : List (HeartbeatStep ι))
    (l : HeartbeatStep ι)
    (hlegal : (heartbeatLoop ι).Legal (start N loop fd size callback added) (ls ++ [l])) {i : ι}
    (hbefore : (((heartbeatLoop ι).run (start N loop fd size callback added)
      ls).conns i).closeRequested = false)
    (hafter : (((heartbeatLoop ι).run (start N loop fd size callback added)
      (ls ++ [l])).conns i).closeRequested = true) :
    let s := (heartbeatLoop ι).run (start N loop fd size callback added) ls
    (∃ k, l = .call i k) ∨
    (∃ n ctl, l = .read i n ctl ∧ (n = .ok 0 ∨ ∃ e, n = .error e ∧ e.retryable = false)) ∨
    (∃ connected ctl n c, l = .tick connected ctl ∧ connected i = true ∧ n < s.saved i ∧
      Timer.lastInsert (i, n) (wheelRun (start N loop fd size callback added) ls) = some c ∧
      c + N = Timer.ticks (wheelRun (start N loop fd size callback added) ls) + 1 ∧
      (s.saved i = 1 → s.heartbeat i = some (i, n))) := by
  intro s
  have hkeeps := keeps hN hN' (Machine.Legal.of_append _ hlegal)
  rw [Machine.run_concat] at hafter
  change (s.conns i).closeRequested = false at hbefore
  change Timer.Keeps N _ s.timer at hkeeps
  change ((s.step l).conns i).closeRequested = true at hafter
  have hnone : s.connSteps i l ≠ [] := by
    intro hnone
    have hsame : (connection.run (s.conns i) (s.connSteps i l)).closeRequested = true := hafter
    rw [hnone, connection.run_nil, hbefore] at hsame
    cases hsame
  cases l with
  | saveLifeMechanism j => exact absurd rfl hnone
  | slice => exact absurd rfl hnone
  | timerRead times => exact absurd rfl hnone
  | call j k =>
      by_cases hj : j = i
      · subst hj
        exact .inl ⟨k, rfl⟩
      · exact absurd (if_pos hj) hnone
  | read j n ctl =>
      refine .inr (.inl ⟨n, ctl, ?_⟩)
      by_cases hj : j ≠ i ∨ (s.conns j).status ≠ .kConnecting
      · exact absurd (if_pos hj) hnone
      · have hsame : j = i := by
          by_contra hne
          exact hj (.inl hne)
        subst hsame
        cases n with
        | ok n =>
            cases n with
            | zero => exact ⟨rfl, .inl rfl⟩
            | succ n =>
                exact absurd (show s.connSteps j (.read j (.ok (n + 1)) ctl) = [] from if_neg hj)
                  hnone
        | error e =>
            cases hretry : e.retryable with
            | false => exact ⟨rfl, .inr ⟨e, rfl, hretry⟩⟩
            | true =>
                exact absurd (show s.connSteps j (.read j (.error e) ctl) = [] from
                  (if_neg hj).trans (if_pos hretry)) hnone
  | tick connected ctl =>
      obtain ⟨n, c, hexpired⟩ := expired_of_tick hN hkeeps (counted_run ls) hnone
      exact .inr (.inr ⟨connected, ctl, n, c, rfl, hexpired⟩)

/-! ## A wheel of two slots -/

/-- One connection goes silent, the other reads between the two ticks, of which the timer's
descriptor counts the second one late. -/
def silentRun : List (HeartbeatStep Bool) :=
  [.saveLifeMechanism false, .saveLifeMechanism true, .slice, .timerRead (.ok 1),
    .tick (fun _ => true) (fun _ => ⟨true, true⟩), .read true (.ok 5) ⟨true, true⟩,
    .timerRead (.error .eagain), .slice, .timerRead (.ok 1)]

/-- The second tick -/
def lastTick : HeartbeatStep Bool := .tick (fun _ => true) (fun _ => ⟨true, true⟩)

theorem silentRun_legal : (heartbeatLoop Bool).Legal
    (start 2 0 (fun i => if i then 7 else 8) 16 true fun _ => true) (silentRun ++ [lastTick]) := by
  decide

theorem slices_ticked_silent :
    let s := start 2 0 (fun i : Bool => if i then 7 else 8) 16 true fun _ => true
    Timer.ticks (wheelRun s (silentRun ++ [lastTick])) + ((heartbeatLoop Bool).run s
      (silentRun ++ [lastTick])).due + ((heartbeatLoop Bool).run s
        (silentRun ++ [lastTick])).counter = 2 :=
  slices_ticked (silentRun ++ [lastTick]) silentRun_legal

theorem idle_closed_silent :
    (((heartbeatLoop Bool).run (start 2 0 (fun i => if i then 7 else 8) 16 true fun _ => true)
      (silentRun ++ [lastTick])).conns false).status ≠ .kConnecting := by
  have hpresent : ∀ l ∈ silentRun ++ [lastTick], Present false l := by
    simp [silentRun, lastTick, Present]
  exact (idle_closed (n := 0) (c := 0) (by decide) (by decide) _ silentRun_legal hpresent
    (by decide) (by decide)).2 (by decide)

theorem closes_only_idle_silent :
    ∃ n c, Timer.lastInsert (false, n)
      (wheelRun (start 2 0 (fun i : Bool => if i then 7 else 8) 16 true fun _ => true)
        silentRun) = some c := by
  rcases closes_only_idle (i := false) (by decide) (by decide) silentRun lastTick silentRun_legal
    (by decide) (by decide) with ⟨k, hk⟩ | ⟨n, ctl, hl, _⟩ | ⟨_, _, n, c, _, _, _, hc, _⟩
  · cases hk
  · cases hl
  · exact ⟨n, c, hc⟩

/-- After a second call of `SaveLifeMechanism` the first object closes a connection that has just
read something. -/
example : (((heartbeatLoop Bool).run (start 2 0 (fun i => if i then 7 else 8) 16 true fun _ => true)
    (.saveLifeMechanism true :: silentRun ++ [lastTick])).conns true).status =
      .kDisConnected := by
  decide

end HeartbeatLoop

end Adachi.Network
