import Adachi.Io.BufferQueue
import Adachi.Lib.Machine
import Mathlib.Data.List.GetD
import Mathlib.Data.List.Nodup
import Mathlib.Logic.Function.Basic

/-!
# `adachi::io::Timer`

The timing wheel of the heartbeat mechanism (`src/timer/timer.cpp`,
`src/timer/heartbeatobj.cpp`).  A heartbeat object is kept alive by its entries in
the slots of the wheel; a tick clears one slot, and an object whose last entry goes
is destroyed and asks its connection to close.

`InsertInThread` compares slot numbers to see whether the object is already in the
slot that is cleared last, and slot numbers repeat with every revolution.  The
invariant is therefore stated over the number `s` of a tick, not over slots: slot
`s % N` is the one that the tick after `s` ticks clears (`slotAt`).

## Main results

* `wheel_expires`: in every run of a wheel of size `N`, an object inserted last after
  `c` ticks is held until the tick `c + N` destroys it, and no slot holds it twice.
-/

namespace Adachi.Io

/-- `last_insert_pos_` is a member of the heartbeat object `i`; `destroyed` lists the
objects whose destructor has run. -/
structure Timer (ι : Type) where
  timerwheelSt : List (List ι)
  ptr : Int
  lastInsertPos : ι → Int
  destroyed : List ι

/-- A call of `InsertInThread` or of `Tick`; `connected` tells for which objects the
connection still exists. -/
inductive TimerStep (ι : Type) where
  | insert (i : ι)
  | tick (connected : ι → Bool)

namespace Timer

variable {ι : Type}

/-- `Timer(owner, heartbeat_num, _)` -/
def new (heartbeatNum : Nat) : Timer ι where
  timerwheelSt := List.replicate heartbeatNum []
  ptr := 0
  lastInsertPos := fun _ => -1
  destroyed := []

/-- The wheel keeps the object alive. -/
def Holds (t : Timer ι) (i : ι) : Prop := ∃ slot ∈ t.timerwheelSt, i ∈ slot

/-- `int insert_pos = (ptr_ - 1 + timerwheel_st_.size()) % timerwheel_st_.size()` -/
def insertPos (t : Timer ι) : Int :=
  toInt ((addSize (t.ptr - 1) t.timerwheelSt.length % t.timerwheelSt.length : Nat) : Int)

variable [DecidableEq ι]

def insertInThread (t : Timer ι) (i : ι) : Timer ι :=
  if t.lastInsertPos i ≠ t.insertPos then
    { t with
      lastInsertPos := Function.update t.lastInsertPos i t.insertPos
      timerwheelSt := t.timerwheelSt.modify t.insertPos.toNat (· ++ [i]) }
  else t

/-- The objects destroyed when the entries of a slot are released one by one: those
with no entry left in the slot nor in the `others`. -/
def released (others : List (List ι)) : List ι → List ι
  | [] => []
  | i :: slot =>
      if i ∈ slot ∨ ∃ other ∈ others, i ∈ other then released others slot
      else i :: released others slot

/-- The objects that the next tick destroys. -/
def expiring (t : Timer ι) : List ι :=
  released (t.timerwheelSt.set t.ptr.toNat []) (t.timerwheelSt.getD t.ptr.toNat [])

def tick (t : Timer ι) : Timer ι :=
  { t with
    timerwheelSt := t.timerwheelSt.set t.ptr.toNat []
    ptr := toInt ((toSize (t.ptr + 1) % t.timerwheelSt.length : Nat) : Int)
    destroyed := t.destroyed ++ t.expiring }

def next (t : Timer ι) : TimerStep ι → Timer ι
  | .insert i => t.insertInThread i
  | .tick _ => t.tick

/-- An insertion needs a pointer to the object, which `heartbeat_ptr_.lock()` gives
only while the object exists. -/
def Possible (t : Timer ι) : TimerStep ι → Prop
  | .insert i => i ∉ t.destroyed
  | .tick _ => True

instance (t : Timer ι) : (l : TimerStep ι) → Decidable (t.Possible l)
  | .insert i => inferInstanceAs (Decidable (i ∉ t.destroyed))
  | .tick _ => inferInstanceAs (Decidable True)

/-- The objects whose destructor asks the connection to close in a step. -/
def closes (t : Timer ι) : TimerStep ι → List ι
  | .insert _ => []
  | .tick connected => t.expiring.filter connected

end Timer

def wheel (ι : Type) [DecidableEq ι] : Machine (Timer ι) (TimerStep ι) where
  next := Timer.next
  enabled := Timer.Possible

instance (ι : Type) [DecidableEq ι] (t : Timer ι) (l : TimerStep ι) :
    Decidable ((wheel ι).enabled t l) :=
  inferInstanceAs (Decidable (t.Possible l))

namespace Timer

variable {ι : Type}

/-! ## What is read off a run -/

/-- The number of ticks in a run. -/
def ticks : List (TimerStep ι) → Nat
  | [] => 0
  | .insert _ :: ls => ticks ls
  | .tick _ :: ls => ticks ls + 1

/-- After how many ticks of the run the object was inserted last. -/
def lastInsert [DecidableEq ι] (i : ι) : List (TimerStep ι) → Option Nat
  | [] => none
  | .insert j :: ls => (lastInsert i ls).or (if j = i then some 0 else none)
  | .tick _ :: ls => (lastInsert i ls).map (· + 1)

theorem ticks_append (ls ms : List (TimerStep ι)) :
    ticks (ls ++ ms) = ticks ls + ticks ms := by
  induction ls with
  | nil => simp [ticks]
  | cons l ls ih =>
      cases l with
      | insert j => simpa [ticks] using ih
      | tick connected => simp [ticks, ih, Nat.add_right_comm]

theorem ticks_concat_insert (ls : List (TimerStep ι)) (i : ι) :
    ticks (ls ++ [.insert i]) = ticks ls := ticks_append ls [.insert i]

theorem ticks_concat_tick (ls : List (TimerStep ι)) (connected : ι → Bool) :
    ticks (ls ++ [.tick connected]) = ticks ls + 1 := ticks_append ls [.tick connected]

section LastInsert

variable [DecidableEq ι]

theorem lastInsert_concat_insert (i j : ι) (ls : List (TimerStep ι)) :
    lastInsert i (ls ++ [.insert j]) = if j = i then some (ticks ls) else lastInsert i ls := by
  induction ls with
  | nil =>
      change (none : Option Nat).or _ = _
      rw [Option.none_or]
      rfl
  | cons l ls ih =>
      cases l with
      | insert k =>
          change (lastInsert i (ls ++ [.insert j])).or _ = _
          rw [ih]
          by_cases hj : j = i
          · rw [if_pos hj, if_pos hj]
            rfl
          · rw [if_neg hj, if_neg hj]
            rfl
      | tick connected =>
          change (lastInsert i (ls ++ [.insert j])).map (· + 1) = _
          rw [ih]
          by_cases hj : j = i
          · rw [if_pos hj, if_pos hj]
            rfl
          · rw [if_neg hj, if_neg hj]
            rfl

theorem lastInsert_concat_tick (i : ι) (ls : List (TimerStep ι)) (connected : ι → Bool) :
    lastInsert i (ls ++ [.tick connected]) = lastInsert i ls := by
  induction ls with
  | nil => rfl
  | cons l ls ih =>
      cases l with
      | insert k => exact congrArg (Option.or · _) ih
      | tick connected' => exact congrArg (Option.map (· + 1)) ih

end LastInsert

/-! ## Reference counting -/

theorem mem_released [DecidableEq ι] {others : List (List ι)} {slot : List ι} {i : ι} :
    i ∈ released others slot ↔ i ∈ slot ∧ ¬∃ other ∈ others, i ∈ other := by
  induction slot with
  | nil => simp [released]
  | cons j slot ih =>
      unfold released
      split
      · rename_i hheld
        rw [ih, List.mem_cons]
        constructor
        · exact fun h => ⟨.inr h.1, h.2⟩
        · intro h
          refine ⟨?_, h.2⟩
          rcases h.1 with heq | hmem
          · subst heq
            exact hheld.resolve_right h.2
          · exact hmem
      · rename_i hheld
        rw [not_or] at hheld
        rw [List.mem_cons, List.mem_cons, ih]
        constructor
        · intro h
          rcases h with heq | hmem
          · exact ⟨.inl heq, heq ▸ hheld.2⟩
          · exact ⟨.inr hmem.1, hmem.2⟩
        · intro h
          rcases h.1 with heq | hmem
          · exact .inl heq
          · exact .inr ⟨hmem, h.2⟩

/-- No object is destroyed twice. -/
theorem nodup_released [DecidableEq ι] (others : List (List ι)) (slot : List ι) :
    (released others slot).Nodup := by
  induction slot with
  | nil => exact List.nodup_nil
  | cons i slot ih =>
      unfold released
      split
      · exact ih
      · rename_i hheld
        rw [not_or] at hheld
        exact List.nodup_cons.2 ⟨fun h => hheld.1 (mem_released.1 h).1, ih⟩

/-! ## Slots by the number of a tick -/

/-- The slot that the tick after `s` ticks clears. -/
def slotAt (t : Timer ι) (s : Nat) : List ι :=
  t.timerwheelSt.getD (s % t.timerwheelSt.length) []

theorem slotAt_new (N s : Nat) : (new N : Timer ι).slotAt s = [] := by
  unfold slotAt new
  rw [List.getD_eq_getElem?_getD, List.getElem?_getD_replicate_default_eq]

/-- Within one revolution, different ticks clear different slots. -/
theorem eq_of_mod_eq {N n a b : Nat} (ha : n ≤ a) (haN : a < n + N) (hb : n ≤ b)
    (hbN : b < n + N) (h : a % N = b % N) : a = b := by
  rcases Nat.le_total a b with hle | hle
  · have hzero := Nat.sub_mod_eq_zero_of_mod_eq h.symm
    rw [Nat.mod_eq_of_lt (by omega)] at hzero
    omega
  · have hzero := Nat.sub_mod_eq_zero_of_mod_eq h
    rw [Nat.mod_eq_of_lt (by omega)] at hzero
    omega

/-- Every slot is cleared within the next revolution. -/
theorem exists_mod_eq {N : Nat} (n : Nat) {p : Nat} (hp : p < N) :
    ∃ s, n ≤ s ∧ s < n + N ∧ s % N = p := by
  have hn : n % N < N := Nat.mod_lt n (by omega)
  by_cases hle : n % N ≤ p
  · refine ⟨n + (p - n % N), by omega, by omega, ?_⟩
    rw [Nat.add_mod, Nat.mod_eq_of_lt (a := p - n % N) (by omega),
      show n % N + (p - n % N) = p by omega, Nat.mod_eq_of_lt hp]
  · refine ⟨n + (N - n % N) + p, by omega, by omega, ?_⟩
    rw [Nat.add_mod, Nat.add_mod n, Nat.mod_eq_of_lt (a := N - n % N) (by omega),
      show n % N + (N - n % N) = N by omega, Nat.mod_self, Nat.zero_add, Nat.mod_mod,
      Nat.mod_eq_of_lt hp]

theorem holds_iff {t : Timer ι} {i : ι} (n : Nat) :
    t.Holds i ↔ ∃ s, n ≤ s ∧ s < n + t.timerwheelSt.length ∧ i ∈ t.slotAt s := by
  constructor
  · intro h
    rcases h with ⟨slot, hslot, hi⟩
    rcases List.mem_iff_getElem.1 hslot with ⟨p, hp, hget⟩
    rcases exists_mod_eq n hp with ⟨s, hle, hlt, hmod⟩
    refine ⟨s, hle, hlt, ?_⟩
    unfold slotAt
    rw [hmod, List.getD_eq_getElem _ _ hp, hget]
    exact hi
  · intro h
    rcases h with ⟨s, hle, hlt, hi⟩
    have hp : s % t.timerwheelSt.length < t.timerwheelSt.length := Nat.mod_lt s (by omega)
    unfold slotAt at hi
    rw [List.getD_eq_getElem _ _ hp] at hi
    exact ⟨_, List.getElem_mem hp, hi⟩

/-- The last slot to be cleared, which `ptr_ - 1` names without going below zero. -/
theorem insertPos_eq {t : Timer ι} {N n : Nat} (hN : 0 < N) (hN' : N < 2 ^ 31)
    (hsize : t.timerwheelSt.length = N) (hptr : t.ptr = (n % N : Nat)) :
    t.insertPos = ((n + N - 1) % N : Nat) := by
  have hn : n % N < N := Nat.mod_lt n hN
  have hadd : addSize (t.ptr - 1) N % N = (n + N - 1) % N := by
    have hsum : addSize (t.ptr - 1) N = n % N + (N - 1) := by
      rw [hptr]
      unfold addSize toSize
      omega
    rw [hsum, Nat.mod_add_mod, Nat.add_sub_assoc (by omega)]
  have hlt : (n + N - 1) % N < N := Nat.mod_lt _ hN
  unfold insertPos
  rw [hsize, hadd]
  exact toInt_of_lt (by omega) (by omega)

variable [DecidableEq ι]

theorem tick_ptr {t : Timer ι} {N n : Nat} (hN : 0 < N) (hN' : N < 2 ^ 31)
    (hsize : t.timerwheelSt.length = N) (hptr : t.ptr = (n % N : Nat)) :
    t.tick.ptr = ((n + 1) % N : Nat) := by
  have hn : n % N < N := Nat.mod_lt n hN
  have hadd : toSize (t.ptr + 1) % N = (n + 1) % N := by
    have hsum : toSize (t.ptr + 1) = n % N + 1 := by
      rw [hptr]
      unfold toSize
      omega
    rw [hsum, Nat.mod_add_mod]
  have hlt : (n + 1) % N < N := Nat.mod_lt _ hN
  unfold tick
  dsimp only
  rw [hsize, hadd]
  exact toInt_of_lt (by omega) (by omega)

theorem slotAt_tick (t : Timer ι) (s : Nat) :
    t.tick.slotAt s =
      if s % t.timerwheelSt.length = t.ptr.toNat then [] else t.slotAt s := by
  unfold slotAt tick
  dsimp only
  rw [List.length_set, List.getD_eq_getElem?_getD, List.getElem?_set,
    List.getD_eq_getElem?_getD]
  by_cases hp : s % t.timerwheelSt.length = t.ptr.toNat
  · rw [if_pos hp, if_pos hp.symm]
    split
    · rfl
    · rfl
  · rw [if_neg hp, if_neg (Ne.symm hp)]

theorem insertInThread_of_eq {t : Timer ι} {i : ι} (h : t.lastInsertPos i = t.insertPos) :
    t.insertInThread i = t := by
  unfold insertInThread
  rw [if_neg (not_not.2 h)]

theorem insertInThread_of_ne {t : Timer ι} {i : ι} (h : t.lastInsertPos i ≠ t.insertPos) :
    t.insertInThread i =
      { t with
        lastInsertPos := Function.update t.lastInsertPos i t.insertPos
        timerwheelSt := t.timerwheelSt.modify t.insertPos.toNat (· ++ [i]) } := by
  unfold insertInThread
  rw [if_pos h]

theorem slotAt_insertInThread {t : Timer ι} {i : ι} (hsize : 0 < t.timerwheelSt.length)
    (h : t.lastInsertPos i ≠ t.insertPos) (s : Nat) :
    (t.insertInThread i).slotAt s =
      if s % t.timerwheelSt.length = t.insertPos.toNat then t.slotAt s ++ [i]
      else t.slotAt s := by
  have hp : s % t.timerwheelSt.length < t.timerwheelSt.length := Nat.mod_lt s hsize
  unfold slotAt insertInThread
  rw [if_pos h]
  dsimp only
  rw [List.length_modify, List.getD_eq_getElem?_getD, List.getElem?_modify,
    List.getD_eq_getElem?_getD, List.getElem?_eq_getElem hp, Option.map_eq_map,
    Option.map_some, Option.getD_some, Option.getD_some]
  by_cases heq : s % t.timerwheelSt.length = t.insertPos.toNat
  · rw [if_pos heq, if_pos heq.symm]
  · rw [if_neg heq, if_neg (Ne.symm heq)]

/-! ## The invariant of all runs -/

/-- The object `i` has never been inserted. -/
structure Fresh (t : Timer ι) (i : ι) : Prop where
  pos : t.lastInsertPos i = -1
  slots : ∀ s, i ∉ t.slotAt s
  alive : i ∉ t.destroyed

/-- After `n` ticks, the object `i` was inserted last after `c` ticks: it is in the slot
that the tick `c + N` clears, and in none that is cleared later. -/
structure Timed (N n c : Nat) (t : Timer ι) (i : ι) : Prop where
  le : c ≤ n
  pos : t.lastInsertPos i = ((c + N - 1) % N : Nat)
  held : n < c + N → i ∈ t.slotAt (c + N - 1)
  early : ∀ s, n ≤ s → s < n + N → i ∈ t.slotAt s → s < c + N
  destroyed : i ∈ t.destroyed ↔ c + N ≤ n

/-- A wheel of size `N` after the run `ls`. -/
structure Keeps (N : Nat) (ls : List (TimerStep ι)) (t : Timer ι) : Prop where
  size : t.timerwheelSt.length = N
  ptr : t.ptr = (ticks ls % N : Nat)
  nodup : ∀ s, (t.slotAt s).Nodup
  fresh : ∀ i, lastInsert i ls = none → t.Fresh i
  timed : ∀ i c, lastInsert i ls = some c → Timed N (ticks ls) c t i
  once : t.destroyed.Nodup

variable {N : Nat} {ls : List (TimerStep ι)} {t : Timer ι} {i : ι}

theorem keeps_new (N : Nat) : Keeps N [] (new N : Timer ι) where
  size := List.length_replicate
  ptr := by
    change (0 : Int) = ((0 % N : Nat) : Int)
    rw [Nat.zero_mod]
    rfl
  nodup s := by
    rw [slotAt_new]
    exact List.nodup_nil
  fresh i _ := by
    refine ⟨rfl, ?_, List.not_mem_nil⟩
    intro s
    rw [slotAt_new]
    exact List.not_mem_nil
  timed i c h := by cases h
  once := List.nodup_nil

/-! ### `InsertInThread` -/

/-- The remembered slot is the one cleared last only if the object was inserted since
the last tick. -/
theorem Keeps.pos_eq_iff (h : Keeps N ls t) (hN : 0 < N) (hN' : N < 2 ^ 31)
    (hi : i ∉ t.destroyed) :
    t.lastInsertPos i = t.insertPos ↔ lastInsert i ls = some (ticks ls) := by
  rw [insertPos_eq hN hN' h.size h.ptr]
  cases hlast : lastInsert i ls with
  | none =>
      rw [(h.fresh i hlast).pos]
      constructor
      · intro heq
        omega
      · intro hnone
        cases hnone
  | some c =>
      have htimed := h.timed i c hlast
      have halive := mt htimed.destroyed.2 hi
      have hle := htimed.le
      rw [htimed.pos]
      constructor
      · intro heq
        have hmod : (c + N - 1) % N = (ticks ls + N - 1) % N := Int.ofNat_inj.1 heq
        have hsum : c + N - 1 = ticks ls + N - 1 :=
          eq_of_mod_eq (n := ticks ls) (by omega) (by omega) (by omega) (by omega) hmod
        rw [show c = ticks ls by omega]
      · intro hsome
        rw [Option.some_inj.1 hsome]

/-- So an object is never put into a slot that holds it. -/
theorem Keeps.not_mem_insert (h : Keeps N ls t) (hN : 0 < N) (hN' : N < 2 ^ 31)
    (hi : i ∉ t.destroyed) (hne : t.lastInsertPos i ≠ t.insertPos) {s : Nat}
    (hs : s % N = t.insertPos.toNat) : i ∉ t.slotAt s := by
  rw [Ne, h.pos_eq_iff hN hN' hi] at hne
  rw [insertPos_eq hN hN' h.size h.ptr, Int.toNat_natCast] at hs
  have hslot : t.slotAt s = t.slotAt (ticks ls + N - 1) := by
    unfold slotAt
    rw [h.size, hs]
  rw [hslot]
  cases hlast : lastInsert i ls with
  | none => exact (h.fresh i hlast).slots _
  | some c =>
      intro hmem
      have htimed := h.timed i c hlast
      have hearly := htimed.early _ (by omega) (by omega) hmem
      have hle := htimed.le
      exact hne (by rw [hlast, show c = ticks ls by omega])

theorem Keeps.insert_of_eq (h : Keeps N ls t) (hN : 0 < N) (hN' : N < 2 ^ 31)
    (hi : i ∉ t.destroyed) (heq : t.lastInsertPos i = t.insertPos) :
    Keeps N (ls ++ [.insert i]) (t.insertInThread i) := by
  have hnow := (h.pos_eq_iff hN hN' hi).1 heq
  have hticks := ticks_concat_insert ls i
  have hlast : ∀ j, lastInsert j (ls ++ [.insert i]) = lastInsert j ls := by
    intro j
    rw [lastInsert_concat_insert]
    by_cases hj : i = j
    · rw [if_pos hj, ← hj, hnow]
    · rw [if_neg hj]
  rw [insertInThread_of_eq heq]
  constructor
  · exact h.size
  · rw [hticks]
    exact h.ptr
  · exact h.nodup
  · intro j hj
    exact h.fresh j ((hlast j).symm.trans hj)
  · intro j c hj
    rw [hticks]
    exact h.timed j c ((hlast j).symm.trans hj)
  · exact h.once

section Adds

variable {j : ι}

theorem mem_slotAt_insert (hsize : 0 < t.timerwheelSt.length)
    (hne : t.lastInsertPos i ≠ t.insertPos) (hij : i ≠ j) (s : Nat) :
    j ∈ (t.insertInThread i).slotAt s ↔ j ∈ t.slotAt s := by
  rw [slotAt_insertInThread hsize hne]
  split
  · rw [List.mem_append, List.mem_singleton, or_iff_left (Ne.symm hij)]
  · rfl

theorem lastInsertPos_insert (hne : t.lastInsertPos i ≠ t.insertPos) (hij : i ≠ j) :
    (t.insertInThread i).lastInsertPos j = t.lastInsertPos j := by
  rw [insertInThread_of_ne hne]
  exact Function.update_of_ne (Ne.symm hij) ..

theorem Fresh.insert (hsize : 0 < t.timerwheelSt.length)
    (hne : t.lastInsertPos i ≠ t.insertPos) (hij : i ≠ j) (h : t.Fresh j) :
    (t.insertInThread i).Fresh j where
  pos := (lastInsertPos_insert hne hij).trans h.pos
  slots s := (mem_slotAt_insert hsize hne hij s).not.2 (h.slots s)
  alive := by
    rw [insertInThread_of_ne hne]
    exact h.alive

theorem Timed.insert (hsize : 0 < t.timerwheelSt.length)
    (hne : t.lastInsertPos i ≠ t.insertPos) (hij : i ≠ j) {n c : Nat}
    (h : Timed N n c t j) : Timed N n c (t.insertInThread i) j where
  le := h.le
  pos := (lastInsertPos_insert hne hij).trans h.pos
  held hn := (mem_slotAt_insert hsize hne hij _).2 (h.held hn)
  early s hs hs' hmem := h.early s hs hs' ((mem_slotAt_insert hsize hne hij s).1 hmem)
  destroyed := by
    rw [insertInThread_of_ne hne]
    exact h.destroyed

end Adds

/-- The inserted object will be destroyed `N` ticks from now. -/
theorem Keeps.timed_insert (h : Keeps N ls t) (hN : 0 < N) (hN' : N < 2 ^ 31)
    (hi : i ∉ t.destroyed) (hne : t.lastInsertPos i ≠ t.insertPos) :
    Timed N (ticks ls) (ticks ls) (t.insertInThread i) i where
  le := Nat.le_refl _
  pos := by
    rw [insertInThread_of_ne hne, ← insertPos_eq hN hN' h.size h.ptr]
    exact Function.update_self ..
  held _ := by
    rw [slotAt_insertInThread (by rw [h.size]; exact hN) hne, h.size,
      if_pos (by rw [insertPos_eq hN hN' h.size h.ptr, Int.toNat_natCast])]
    exact List.mem_append_right _ (List.mem_singleton_self i)
  early _ _ hs _ := hs
  destroyed := by
    rw [insertInThread_of_ne hne]
    exact iff_of_false hi (by omega)

theorem Keeps.nodup_insert (h : Keeps N ls t) (hN : 0 < N) (hN' : N < 2 ^ 31)
    (hi : i ∉ t.destroyed) (hne : t.lastInsertPos i ≠ t.insertPos) (s : Nat) :
    ((t.insertInThread i).slotAt s).Nodup := by
  rw [slotAt_insertInThread (by rw [h.size]; exact hN) hne, h.size]
  split
  · rename_i hs
    rw [← List.concat_eq_append]
    exact List.Nodup.concat (h.not_mem_insert hN hN' hi hne hs) (h.nodup s)
  · exact h.nodup s

theorem Keeps.insertInThread (h : Keeps N ls t) (hN : 0 < N) (hN' : N < 2 ^ 31)
    (hi : i ∉ t.destroyed) : Keeps N (ls ++ [.insert i]) (t.insertInThread i) := by
  by_cases hne : t.lastInsertPos i = t.insertPos
  · exact h.insert_of_eq hN hN' hi hne
  · have hsize : 0 < t.timerwheelSt.length := by
      rw [h.size]
      exact hN
    have hticks := ticks_concat_insert ls i
    constructor
    · rw [insertInThread_of_ne hne]
      dsimp only
      rw [List.length_modify, h.size]
    · rw [hticks, insertInThread_of_ne hne]
      exact h.ptr
    · exact h.nodup_insert hN hN' hi hne
    · intro j hj
      rw [lastInsert_concat_insert] at hj
      by_cases hij : i = j
      · rw [if_pos hij] at hj
        cases hj
      · rw [if_neg hij] at hj
        exact Fresh.insert hsize hne hij (h.fresh j hj)
    · intro j c hj
      rw [lastInsert_concat_insert] at hj
      rw [hticks]
      by_cases hij : i = j
      · rw [if_pos hij] at hj
        rw [← Option.some_inj.1 hj, ← hij]
        exact h.timed_insert hN hN' hi hne
      · rw [if_neg hij] at hj
        exact Timed.insert hsize hne hij (h.timed j c hj)
    · rw [insertInThread_of_ne hne]
      exact h.once

/-! ### `Tick` -/

theorem Keeps.slotAt_tick (h : Keeps N ls t) (s : Nat) :
    t.tick.slotAt s = if s % N = ticks ls % N then [] else t.slotAt s := by
  rw [Timer.slotAt_tick, h.size, h.ptr, Int.toNat_natCast]

theorem mem_expiring {i : ι} : i ∈ t.expiring ↔
    i ∈ t.timerwheelSt.getD t.ptr.toNat [] ∧ ¬t.tick.Holds i := mem_released

/-- The next tick destroys the objects whose time has come, and no others. -/
theorem Keeps.mem_expiring_iff (h : Keeps N ls t) (hN : 0 < N) :
    i ∈ t.expiring ↔ ∃ c, lastInsert i ls = some c ∧ c + N = ticks ls + 1 := by
  have hslot : t.timerwheelSt.getD t.ptr.toNat [] = t.slotAt (ticks ls) := by
    unfold slotAt
    rw [h.size, h.ptr, Int.toNat_natCast]
  have hsize : t.tick.timerwheelSt.length = N := List.length_set.trans h.size
  have hholds := holds_iff (t := t.tick) (i := i) (ticks ls + 1)
  rw [hsize] at hholds
  rw [mem_expiring, hslot, hholds]
  cases hlast : lastInsert i ls with
  | none =>
      constructor
      · exact fun hmem => absurd hmem.1 ((h.fresh i hlast).slots _)
      · intro hsome
        rcases hsome with ⟨c, hc, _⟩
        cases hc
  | some c =>
      have htimed := h.timed i c hlast
      have hle := htimed.le
      constructor
      · intro hmem
        rcases hmem with ⟨hmem, hgone⟩
        refine ⟨c, rfl, ?_⟩
        have hlt := htimed.early _ (Nat.le_refl _) (by omega) hmem
        by_contra hne
        apply hgone
        refine ⟨c + N - 1, by omega, by omega, ?_⟩
        rw [h.slotAt_tick, if_neg ?_]
        · exact htimed.held hlt
        · intro hmod
          have hsum := eq_of_mod_eq (n := ticks ls) (by omega) (by omega) (by omega) (by omega)
            hmod
          omega
      · intro hsome
        rcases hsome with ⟨c', hc, hnow⟩
        cases hc
        constructor
        · have hheld := htimed.held (by omega)
          rwa [show c + N - 1 = ticks ls by omega] at hheld
        · intro hholds
          rcases hholds with ⟨s, hs, hs', hmem⟩
          rw [h.slotAt_tick] at hmem
          split at hmem
          · cases hmem
          · rename_i hmod
            have hne : s ≠ ticks ls + N := by
              intro heq
              rw [heq, Nat.add_mod_right] at hmod
              exact hmod rfl
            have hlt := htimed.early s (by omega) (by omega) hmem
            omega

theorem Fresh.tick (h : t.Fresh i) (hexp : i ∉ t.expiring) : t.tick.Fresh i where
  pos := h.pos
  slots s := by
    rw [Timer.slotAt_tick]
    split
    · exact List.not_mem_nil
    · exact h.slots s
  alive := by
    intro hmem
    rcases List.mem_append.1 hmem with hmem | hmem
    · exact h.alive hmem
    · exact hexp hmem

theorem Keeps.timed_tick (h : Keeps N ls t) (hN : 0 < N) {c : Nat}
    (hlast : lastInsert i ls = some c) : Timed N (ticks ls + 1) c t.tick i := by
  have htimed := h.timed i c hlast
  have hle := htimed.le
  constructor
  · omega
  · exact htimed.pos
  · intro hn
    rw [h.slotAt_tick, if_neg ?_]
    · exact htimed.held (by omega)
    · intro hmod
      have hsum := eq_of_mod_eq (n := ticks ls) (by omega) (by omega) (by omega) (by omega) hmod
      omega
  · intro s hs hs' hmem
    rw [h.slotAt_tick] at hmem
    split at hmem
    · cases hmem
    · rename_i hmod
      have hne : s ≠ ticks ls + N := by
        intro heq
        rw [heq, Nat.add_mod_right] at hmod
        exact hmod rfl
      exact htimed.early s (by omega) (by omega) hmem
  · change i ∈ t.destroyed ++ t.expiring ↔ _
    rw [List.mem_append, htimed.destroyed, h.mem_expiring_iff hN, hlast]
    constructor
    · intro hmem
      rcases hmem with hmem | ⟨c', hc, hnow⟩
      · omega
      · cases hc
        omega
    · intro hn
      by_cases hlt : c + N ≤ ticks ls
      · exact .inl hlt
      · exact .inr ⟨c, rfl, by omega⟩

theorem Keeps.tick (h : Keeps N ls t) (hN : 0 < N) (hN' : N < 2 ^ 31)
    (connected : ι → Bool) : Keeps N (ls ++ [.tick connected]) t.tick := by
  have hticks := ticks_concat_tick ls connected
  constructor
  · exact List.length_set.trans h.size
  · rw [hticks]
    exact tick_ptr hN hN' h.size h.ptr
  · intro s
    rw [h.slotAt_tick]
    split
    · exact List.nodup_nil
    · exact h.nodup s
  · intro i hi
    rw [lastInsert_concat_tick] at hi
    refine (h.fresh i hi).tick ?_
    rw [h.mem_expiring_iff hN, hi]
    intro hsome
    rcases hsome with ⟨c, hc, _⟩
    cases hc
  · intro i c hi
    rw [lastInsert_concat_tick] at hi
    rw [hticks]
    exact h.timed_tick hN hi
  · refine List.nodup_append.2 ⟨h.once, nodup_released _ _, ?_⟩
    intro i hi j hj hij
    rw [← hij, h.mem_expiring_iff hN] at hj
    rcases hj with ⟨c, hc, hnow⟩
    have hle := (h.timed i c hc).destroyed.1 hi
    omega

/-! ## Runs -/

/-- **Run lemma.** -/
theorem keeps_run (hN : 0 < N) (hN' : N < 2 ^ 31) (ls : List (TimerStep ι))
    (hlegal : (wheel ι).Legal (new N) ls) : Keeps N ls ((wheel ι).run (new N) ls) := by
  refine (wheel ι).run_invariant_history (I := Keeps N) (keeps_new N) ?_ ls hlegal
  intro ls l hlegal h
  cases l with
  | insert i => exact h.insertInThread hN hN' (Machine.Legal.enabled_at _ hlegal)
  | tick connected => exact h.tick hN hN' connected

/-- **The wheel expires exactly the idle objects, exactly on time.**  In every run of a
wheel of size `N`, an object inserted last after `c` ticks is held before the tick
`c + N` and destroyed from then on; its connection, if there still is one, is asked to
close in the tick `c + N` and in no other step.  An object that was never inserted is
neither held nor destroyed, none is destroyed twice, and no slot holds one twice. -/
theorem wheel_expires (hN : 0 < N) (hN' : N < 2 ^ 31) (ls : List (TimerStep ι))
    (hlegal : (wheel ι).Legal (new N) ls) :
    let t := (wheel ι).run (new N) ls
    (∀ i c, lastInsert i ls = some c →
      (t.Holds i ↔ ticks ls < c + N) ∧ (i ∈ t.destroyed ↔ c + N ≤ ticks ls)) ∧
    (∀ i, lastInsert i ls = none → ¬t.Holds i ∧ i ∉ t.destroyed) ∧
    (∀ l i, i ∈ t.closes l ↔ ∃ connected c, l = .tick connected ∧
      lastInsert i ls = some c ∧ ticks ls + 1 = c + N ∧ connected i = true) ∧
    t.destroyed.Nodup ∧ ∀ slot ∈ t.timerwheelSt, slot.Nodup := by
  intro t
  have h := keeps_run hN hN' ls hlegal
  refine ⟨?_, ?_, ?_, h.once, ?_⟩
  · intro i c hlast
    have htimed := h.timed i c hlast
    have hle := htimed.le
    refine ⟨?_, htimed.destroyed⟩
    rw [holds_iff (ticks ls), h.size]
    constructor
    · intro hholds
      rcases hholds with ⟨s, hs, hs', hmem⟩
      have hlt := htimed.early s hs hs' hmem
      omega
    · exact fun hn => ⟨c + N - 1, by omega, by omega, htimed.held hn⟩
  · intro i hlast
    have hfresh := h.fresh i hlast
    refine ⟨?_, hfresh.alive⟩
    rw [holds_iff 0]
    intro hholds
    rcases hholds with ⟨s, _, _, hmem⟩
    exact hfresh.slots s hmem
  · intro l i
    cases l with
    | insert j =>
        constructor
        · intro hmem
          cases hmem
        · intro hsome
          rcases hsome with ⟨connected, c, hl, _⟩
          cases hl
    | tick connected =>
        change i ∈ t.expiring.filter connected ↔ _
        rw [List.mem_filter, h.mem_expiring_iff hN]
        constructor
        · intro hmem
          rcases hmem with ⟨⟨c, hc, hnow⟩, hconnected⟩
          exact ⟨connected, c, rfl, hc, hnow.symm, hconnected⟩
        · intro hsome
          rcases hsome with ⟨connected', c, hl, hc, hnow, hconnected⟩
          cases hl
          exact ⟨⟨c, hc, hnow.symm⟩, hconnected⟩
  · intro slot hslot
    rcases List.mem_iff_getElem.1 hslot with ⟨p, hp, hget⟩
    have hnodup := h.nodup p
    unfold slotAt at hnodup
    rw [Nat.mod_eq_of_lt hp, List.getD_eq_getElem _ _ hp, hget] at hnodup
    exact hnodup

/-- A wheel of size 2: one object goes silent, the other is inserted again. -/
theorem wheel_expires_silent :
    let ls : List (TimerStep Bool) :=
      [.insert false, .insert true, .tick fun _ => true, .insert true, .insert true]
    false ∈ ((wheel Bool).run (new 2) ls).closes (.tick fun _ => true) ∧
      true ∉ ((wheel Bool).run (new 2) ls).closes (.tick fun _ => true) := by
  intro ls
  have hlegal : (wheel Bool).Legal (new 2) ls := by decide
  have hcloses := (wheel_expires (by decide) (by decide) ls hlegal).2.2.1 (.tick fun _ => true)
  constructor
  · exact (hcloses false).2 ⟨_, 0, rfl, by decide, by decide, rfl⟩
  · intro hmem
    rcases (hcloses true).1 hmem with ⟨_, c, _, hc, hnow, _⟩
    have hlast : lastInsert true ls = some 1 := by decide
    rw [hlast] at hc
    cases hc
    revert hnow
    decide

end Timer

end Adachi.Io
