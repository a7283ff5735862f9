import Adachi.Io.BufferQueue
import Adachi.Lib.Machine
import Mathlib.Data.List.Rotate

/-!
# `adachi::tool::EventLoopThreadPool`

The loops that take the connections of a server, and the cursor that hands them out in turn
(`src/eventloopthreadpool.cpp`).  `num_` may change at any time, `oper_threads_` only in
`Start`, and the cursor `pos_` is left where it is by both.

The cursor is an `int` and `num_` an `unsigned int`, so that `%` is computed in
`unsigned int`.  What C++ gives no meaning to is a `Fault` here.

## Main results

* `loop_selection`: in every run `num_` stays between 1 and the number of loops while the
  pool is running, no call faults, and `num_` calls of `GetOneThread` in a row return each
  of the first `num_` loops once.
-/

namespace Adachi.Tool

open Adachi.Io

/-- `threads` is the size of `threads_`; `operThreads` holds the loops by an identity. -/
structure EventLoopThreadPool (ι : Type) where
  pos : Int
  running : Bool
  threads : Nat
  operThreads : List ι
  num : UInt32
  maxnum : UInt32
  deriving DecidableEq

/-- A division by zero, an index outside a vector, an `int` beyond its range. -/
inductive Fault where
  | modulo
  | index
  | overflow
  deriving DecidableEq

/-- Linux has at most this many threads at a time (`PID_MAX_LIMIT`). -/
def pidMaxLimit : Nat := 2 ^ 22

/-- A call on the pool; `loops` are the values that the `EventLoopThread::Start` calls of
`Start` return. -/
inductive PoolCall (ι : Type) where
  | setSize (num : UInt32)
  | start (loops : Nat → ι)
  | close
  | getOneThread

namespace EventLoopThreadPool

variable {ι : Type}

def new : EventLoopThreadPool ι where
  pos := 0
  running := false
  threads := 0
  operThreads := []
  num := 1
  maxnum := 1

/-- The `int` operand of an operation in `unsigned int` -/
def operand (i : Int) : Nat := (i % 2 ^ 32).toNat

def getOneThread (p : EventLoopThreadPool ι) :
    Except Fault (Option ι × EventLoopThreadPool ι) :=
  if p.running = false then .ok (none, p)
  else if p.num.toNat = 0 then .error .modulo
  else
    let pos := toInt (operand p.pos % p.num.toNat : Nat)
    match p.operThreads[toSize pos]? with
    | none => .error .index
    | some ret =>
        if pos + 1 < 2 ^ 31 then
          .ok (some ret, { p with pos := toInt (operand (pos + 1) % p.num.toNat : Nat) })
        else .error .overflow

/-- `Start`, once all of the threads could be made. -/
def start (p : EventLoopThreadPool ι) (loops : Nat → ι) : EventLoopThreadPool ι :=
  { p with
    maxnum := p.num
    threads := p.num.toNat
    operThreads := (List.range p.num.toNat).map loops
    running := true }

/-- `Close`.  The loop over `threads_` reads `oper_threads_` at the same index. -/
def close (p : EventLoopThreadPool ι) : Except Fault (EventLoopThreadPool ι) :=
  if p.threads ≤ p.operThreads.length then .ok { p with running := false }
  else .error .index

def setSize (p : EventLoopThreadPool ι) (num : UInt32) : EventLoopThreadPool ι :=
  if p.running then { p with num := max (min num p.maxnum) 1 }
  else { p with num := max 1 num }

/-- A call, with the loop that it returns. -/
def call (p : EventLoopThreadPool ι) :
    PoolCall ι → Except Fault (Option ι × EventLoopThreadPool ι)
  | .setSize num => .ok (none, p.setSize num)
  | .start loops => .ok (none, p.start loops)
  | .close => p.close.map fun p => (none, p)
  | .getOneThread => p.getOneThread

/-- A fault leaves the pool as it was. -/
def next (p : EventLoopThreadPool ι) (c : PoolCall ι) : EventLoopThreadPool ι :=
  match p.call c with
  | .ok (_, p) => p
  | .error _ => p

/-- `Start` returns only when the system has room for its threads; where it has not, the
`std::thread` constructor throws and nothing catches the exception. -/
def Possible (p : EventLoopThreadPool ι) : PoolCall ι → Prop
  | .start _ => p.num.toNat ≤ pidMaxLimit
  | _ => True

instance (p : EventLoopThreadPool ι) : (c : PoolCall ι) → Decidable (p.Possible c)
  | .start _ => inferInstanceAs (Decidable (p.num.toNat ≤ pidMaxLimit))
  | .setSize _ | .close | .getOneThread => inferInstanceAs (Decidable True)

/-- What `k` calls of `GetOneThread` in a row return. -/
def getThreads : Nat → EventLoopThreadPool ι → Except Fault (List (Option ι))
  | 0, _ => .ok []
  | k + 1, p => do
      let (ret, p) ← p.getOneThread
      let rets ← getThreads k p
      return ret :: rets

end EventLoopThreadPool

def pool (ι : Type) : Machine (EventLoopThreadPool ι) (PoolCall ι) where
  next := EventLoopThreadPool.next
  enabled := EventLoopThreadPool.Possible

instance (ι : Type) (p : EventLoopThreadPool ι) (c : PoolCall ι) :
    Decidable ((pool ι).enabled p c) :=
  inferInstanceAs (Decidable (p.Possible c))

namespace EventLoopThreadPool

variable {ι : Type} {p : EventLoopThreadPool ι}

/-! ## The sizes -/

/-- What every call keeps.  While the pool is running, `num_` is at most `maxnum_`, the
number of loops made by the last `Start`. -/
structure Sized (p : EventLoopThreadPool ι) : Prop where
  pos_nonneg : 0 ≤ p.pos
  pos_lt : p.pos < 2 ^ 31
  num_pos : 1 ≤ p.num.toNat
  loops : p.operThreads.length = p.threads
  limit : p.threads ≤ pidMaxLimit
  num_le : p.running = true → p.num.toNat ≤ p.maxnum.toNat
  maxnum : p.running = true → p.maxnum.toNat = p.operThreads.length

theorem Sized.new : (new : EventLoopThreadPool ι).Sized where
  pos_nonneg := Int.le_refl 0
  pos_lt := show (0 : Int) < 2 ^ 31 by decide
  num_pos := Nat.le_refl 1
  loops := rfl
  limit := Nat.zero_le _
  num_le := nofun
  maxnum := nofun

theorem toNat_max (a b : UInt32) : (max a b).toNat = max a.toNat b.toNat := by
  show (if a ≤ b then b else a).toNat = _
  split
  · rename_i h
    exact (Nat.max_eq_right (UInt32.le_iff_toNat_le.1 h)).symm
  · rename_i h
    rw [UInt32.le_iff_toNat_le] at h
    exact (Nat.max_eq_left (by omega)).symm

theorem toNat_min (a b : UInt32) : (min a b).toNat = min a.toNat b.toNat := by
  show (if a ≤ b then a else b).toNat = _
  split
  · rename_i h
    exact (Nat.min_eq_left (UInt32.le_iff_toNat_le.1 h)).symm
  · rename_i h
    rw [UInt32.le_iff_toNat_le] at h
    exact (Nat.min_eq_right (by omega)).symm

theorem setSize_running (h : p.running = true) (num : UInt32) :
    p.setSize num = { p with num := max (min num p.maxnum) 1 } := if_pos h

theorem setSize_stopped (h : p.running = false) (num : UInt32) :
    p.setSize num = { p with num := max 1 num } :=
  if_neg (by rw [h]; decide)

theorem Sized.setSize (h : p.Sized) (num : UInt32) : (p.setSize num).Sized := by
  have hone : (1 : UInt32).toNat = 1 := rfl
  cases hrunning : p.running with
  | true =>
      have hle := h.num_le hrunning
      have hpos := h.num_pos
      rw [setSize_running hrunning]
      refine ⟨h.pos_nonneg, h.pos_lt, ?_, h.loops, h.limit, ?_, h.maxnum⟩
      · show 1 ≤ (max (min num p.maxnum) 1).toNat
        rw [toNat_max, hone]
        omega
      · intro _
        show (max (min num p.maxnum) 1).toNat ≤ p.maxnum.toNat
        rw [toNat_max, toNat_min, hone]
        omega
  | false =>
      rw [setSize_stopped hrunning]
      refine ⟨h.pos_nonneg, h.pos_lt, ?_, h.loops, h.limit, ?_, h.maxnum⟩
      · show 1 ≤ (max 1 num).toNat
        rw [toNat_max, hone]
        omega
      · intro hrun
        rw [hrunning] at hrun
        cases hrun

theorem Sized.start (h : p.Sized) (loops : Nat → ι) (hlimit : p.num.toNat ≤ pidMaxLimit) :
    (p.start loops).Sized where
  pos_nonneg := h.pos_nonneg
  pos_lt := h.pos_lt
  num_pos := h.num_pos
  loops := by simp [EventLoopThreadPool.start]
  limit := hlimit
  num_le := fun _ => Nat.le_refl _
  maxnum := fun _ => by simp [EventLoopThreadPool.start]

theorem Sized.close (h : p.Sized) : p.close = .ok { p with running := false } :=
  if_pos (Nat.le_of_eq h.loops.symm)

theorem Sized.closed (h : p.Sized) :
    ({ p with running := false } : EventLoopThreadPool ι).Sized where
  pos_nonneg := h.pos_nonneg
  pos_lt := h.pos_lt
  num_pos := h.num_pos
  loops := h.loops
  limit := h.limit
  num_le := nofun
  maxnum := nofun

theorem Sized.num_le_length (h : p.Sized) (hrunning : p.running = true) :
    p.num.toNat ≤ p.operThreads.length := by
  rw [← h.maxnum hrunning]
  exact h.num_le hrunning

/-! ## One selection -/

/-- The loop under the cursor, and the cursor one further. -/
theorem Sized.getOneThread (h : p.Sized) (hrunning : p.running = true) :
    ∃ ret, p.operThreads[p.pos.toNat % p.num.toNat]? = some ret ∧
      p.getOneThread =
        .ok (some ret, { p with pos := ((p.pos.toNat + 1) % p.num.toNat : Nat) }) := by
  have hnum := h.num_pos
  have hle := h.num_le_length hrunning
  have hsmall : p.num.toNat ≤ 2 ^ 22 := by
    have hlimit := h.limit
    rw [← h.loops] at hlimit
    exact Nat.le_trans hle hlimit
  have hpos := h.pos_nonneg
  have hpos' := h.pos_lt
  have hlt : p.pos.toNat % p.num.toNat < p.num.toNat := Nat.mod_lt _ hnum
  have hcursor : toInt (operand p.pos % p.num.toNat : Nat) = (p.pos.toNat % p.num.toNat : Nat) := by
    have hoperand : operand p.pos = p.pos.toNat := by
      unfold operand
      rw [Int.emod_eq_of_lt hpos (by omega)]
    rw [hoperand]
    exact toInt_of_lt (by omega) (by omega)
  have hindex : toSize (p.pos.toNat % p.num.toNat : Nat) = p.pos.toNat % p.num.toNat := by
    rw [toSize_of_nonneg (by omega) (by omega), Int.toNat_natCast]
  have hnext : toInt (operand ((p.pos.toNat % p.num.toNat : Nat) + 1) % p.num.toNat : Nat) =
      ((p.pos.toNat + 1) % p.num.toNat : Nat) := by
    have hoperand : operand ((p.pos.toNat % p.num.toNat : Nat) + 1) =
        p.pos.toNat % p.num.toNat + 1 := by
      unfold operand
      rw [Int.emod_eq_of_lt (by omega) (by omega)]
      omega
    have hlt' := Nat.mod_lt (p.pos.toNat + 1) hnum
    rw [hoperand, Nat.mod_add_mod]
    exact toInt_of_lt (by omega) (by omega)
  have hin : p.pos.toNat % p.num.toNat < p.operThreads.length := by omega
  refine ⟨_, List.getElem?_eq_getElem hin, ?_⟩
  unfold EventLoopThreadPool.getOneThread
  rw [if_neg (by rw [hrunning]; decide), if_neg (by omega)]
  dsimp only
  rw [hcursor, hindex, List.getElem?_eq_getElem hin]
  dsimp only
  rw [if_pos (by omega), hnext]

theorem getOneThread_stopped (h : p.running = false) : p.getOneThread = .ok (none, p) :=
  if_pos h

/-- Moving the cursor to a remainder keeps the sizes. -/
theorem Sized.move (h : p.Sized) (hrunning : p.running = true) (n : Nat) :
    ({ p with pos := (n % p.num.toNat : Nat) } : EventLoopThreadPool ι).Sized := by
  have hle := h.num_le_length hrunning
  have hlimit := h.limit
  have hlt := Nat.mod_lt n h.num_pos
  rw [← h.loops] at hlimit
  unfold pidMaxLimit at hlimit
  refine ⟨?_, ?_, h.num_pos, h.loops, h.limit, h.num_le, h.maxnum⟩
  · exact Int.natCast_nonneg _
  · show ((n % p.num.toNat : Nat) : Int) < 2 ^ 31
    omega

/-! ## Runs -/

/-- No call faults, and every call keeps the sizes. -/
theorem Sized.call (h : p.Sized) {c : PoolCall ι} (hc : p.Possible c) :
    ∃ ret p', p.call c = .ok (ret, p') ∧ p'.Sized := by
  cases c with
  | setSize num => exact ⟨_, _, rfl, h.setSize num⟩
  | start loops => exact ⟨_, _, rfl, h.start loops hc⟩
  | close =>
      refine ⟨none, _, ?_, h.closed⟩
      show p.close.map _ = _
      rw [h.close]
      rfl
  | getOneThread =>
      cases hrunning : p.running with
      | false => exact ⟨_, _, getOneThread_stopped hrunning, h⟩
      | true =>
          rcases h.getOneThread hrunning with ⟨ret, _, hcall⟩
          exact ⟨_, _, hcall, h.move hrunning _⟩

theorem sized_run : ∀ cs, (pool ι).Legal new cs → ((pool ι).run new cs).Sized := by
  refine (pool ι).run_invariant Sized.new ?_
  intro p c h hc
  rcases h.call hc with ⟨ret, p', hcall, hp'⟩
  show (next p c).Sized
  unfold next
  rw [hcall]
  exact hp'

/-! ## The rotation -/

theorem getThreads_stopped (h : p.running = false) (k : Nat) :
    getThreads k p = .ok (List.replicate k none) := by
  induction k with
  | zero => rfl
  | succ k ih =>
      unfold getThreads
      rw [getOneThread_stopped h]
      show (getThreads k p >>= fun rets => .ok (none :: rets)) = _
      rw [ih]
      rfl

/-- The calls read the first `num_` loops in turn, from the one under the cursor on. -/
theorem Sized.getThreads (h : p.Sized) (hrunning : p.running = true) (k : Nat) :
    getThreads k p =
      .ok ((List.range k).map fun i =>
        p.operThreads[(p.pos.toNat + i) % p.num.toNat]?) := by
  induction k generalizing p with
  | zero => rfl
  | succ k ih =>
      rcases h.getOneThread hrunning with ⟨ret, hret, hcall⟩
      have hmoved := ih (h.move hrunning (p.pos.toNat + 1)) hrunning
      unfold EventLoopThreadPool.getThreads
      rw [hcall]
      show (EventLoopThreadPool.getThreads k _ >>= fun rets => .ok (some ret :: rets)) = _
      rw [hmoved, List.range_succ_eq_map, List.map_cons, List.map_map]
      show Except.ok (some ret :: _) = Except.ok (p.operThreads[p.pos.toNat % p.num.toNat]? :: _)
      rw [hret]
      congr 2
      refine List.map_congr_left ?_
      intro i _
      show p.operThreads[(((p.pos.toNat + 1) % p.num.toNat : Nat) + i) % p.num.toNat]? =
        p.operThreads[(p.pos.toNat + (i + 1)) % p.num.toNat]?
      rw [Nat.mod_add_mod, Nat.add_assoc, Nat.add_comm 1 i]

/-- One turn around reads a list in rotated order. -/
theorem map_getElem?_rotate {l : List ι} {n : Nat} (hn : n ≤ l.length) (a : Nat) :
    ((List.range n).map fun i => l[(a + i) % n]?) = ((l.take n).rotate a).map some := by
  have hlength : (l.take n).length = n := by rw [List.length_take, Nat.min_eq_left hn]
  refine List.ext_getElem ?_ ?_
  · simp [hn]
  · intro i hi hi'
    rw [List.length_map, List.length_range] at hi
    have hlt : (a + i) % n < n := Nat.mod_lt _ (by omega)
    rw [List.getElem_map, List.getElem_map, List.getElem_range, List.getElem_rotate,
      List.getElem?_eq_getElem (by omega), List.getElem_take]
    simp only [hlength, Nat.add_comm i a]

/-- **Selection is in range and fair.**  In every state of every run: the sizes are in order
while the pool is running, no call that can come next faults, and a pool that is running
hands out each of its first `num_` loops once in any `num_` calls of `GetOneThread` in a
row, wherever the cursor was left.  A pool that is not running hands out nothing. -/
theorem loop_selection (cs : List (PoolCall ι)) (hlegal : (pool ι).Legal new cs) :
    let p := (pool ι).run new cs
    (p.running = true → 1 ≤ p.num.toNat ∧ p.num.toNat ≤ p.operThreads.length) ∧
    (∀ c, p.Possible c → ∃ ret p', p.call c = .ok (ret, p')) ∧
    (p.running = true → ∀ k, ∃ rets, getThreads k p = .ok rets ∧
      ∀ r ∈ rets, ∃ loop ∈ p.operThreads.take p.num.toNat, r = some loop) ∧
    (p.running = true → ∃ rets, getThreads p.num.toNat p = .ok rets ∧
      rets.Perm ((p.operThreads.take p.num.toNat).map some)) ∧
    (p.running = false → ∀ k, getThreads k p = .ok (List.replicate k none)) := by
  intro p
  have h : p.Sized := sized_run cs hlegal
  refine ⟨?_, ?_, ?_, ?_, ?_⟩
  · exact fun hrunning => ⟨h.num_pos, h.num_le_length hrunning⟩
  · intro c hc
    rcases h.call hc with ⟨ret, p', hcall, _⟩
    exact ⟨ret, p', hcall⟩
  · intro hrunning k
    refine ⟨_, h.getThreads hrunning k, ?_⟩
    intro r hr
    rcases List.mem_map.1 hr with ⟨i, _, rfl⟩
    have hle := h.num_le_length hrunning
    have hlt : (p.pos.toNat + i) % p.num.toNat < p.num.toNat := Nat.mod_lt _ h.num_pos
    refine ⟨p.operThreads[(p.pos.toNat + i) % p.num.toNat], ?_, ?_⟩
    · exact List.mem_take_iff_getElem.2 ⟨_, by omega, rfl⟩
    · exact List.getElem?_eq_getElem _
  · intro hrunning
    refine ⟨_, h.getThreads hrunning _, ?_⟩
    rw [map_getElem?_rotate (h.num_le_length hrunning)]
    exact (List.rotate_perm _ _).map some
  · exact fun hstopped k => getThreads_stopped hstopped k

/-- Three loops, two of them handed out, then the pool is shrunk to two. -/
theorem loop_selection_shrunk :
    let cs : List (PoolCall Nat) :=
      [.setSize 3, .start id, .getOneThread, .getOneThread, .setSize 2]
    ∃ rets, getThreads 2 ((pool Nat).run new cs) = .ok rets ∧
      rets.Perm [some 0, some 1] := by
  intro cs
  exact (loop_selection cs (by decide)).2.2.2.1 (by decide)

end EventLoopThreadPool

end Adachi.Tool
