import Mathlib.Data.Int.CardIntervalMod

/-!
# Turns around a list

A cursor that goes around the first `n` entries of a list, from wherever it was left.  In
any number of turns each of these entries is read as often as any other, give or take one.
-/

namespace RoundRobin

variable {α : Type _}

/-- The entries under a cursor that starts at `a`, in `k` turns. -/
def turns (l : List α) (n a k : Nat) : List (Option α) :=
  (List.range k).map fun i => l[(a + i) % n]?

@[simp] theorem turns_zero (l : List α) (n a : Nat) : turns l n a 0 = [] := rfl

theorem turns_succ (l : List α) (n a k : Nat) :
    turns l n a (k + 1) = turns l n a k ++ [l[(a + k) % n]?] := by
  simp [turns, List.range_succ]

variable {l : List α} {n : Nat}

/-- Only the first `n` entries are read. -/
theorem mem_turns (hn : 0 < n) (hle : n ≤ l.length) {a k : Nat} {r : Option α}
    (hr : r ∈ turns l n a k) : ∃ x ∈ l.take n, r = some x := by
  obtain ⟨i, _, rfl⟩ := List.mem_map.1 hr
  have hlt : (a + i) % n < n := Nat.mod_lt _ hn
  refine ⟨l[(a + i) % n], ?_, List.getElem?_eq_getElem _⟩
  exact List.mem_take_iff_getElem.2 ⟨_, by omega, rfl⟩

/-- In a list without repetitions a turn reads an entry when the cursor is at its index. -/
theorem turn_eq_iff (hl : l.Nodup) (hn : 0 < n) (hle : n ≤ l.length) {j : Nat} (hj : j < n)
    (a i : Nat) : l[(a + i) % n]? = some (l[j]) ↔ i ≡ j + (n - a % n) [MOD n] := by
  have hlt : (a + i) % n < n := Nat.mod_lt _ hn
  have hcancel : (a % n + (j + (n - a % n))) % n = j := by
    have ha : a % n < n := Nat.mod_lt _ hn
    rw [show a % n + (j + (n - a % n)) = j + n by omega, Nat.add_mod_right, Nat.mod_eq_of_lt hj]
  calc l[(a + i) % n]? = some (l[j])
      ↔ (a + i) % n = j := by
        rw [List.getElem?_eq_getElem (by omega), Option.some_inj, hl.getElem_inj_iff]
    _ ↔ a % n + i ≡ a % n + (j + (n - a % n)) [MOD n] := by
        unfold Nat.ModEq
        rw [hcancel, Nat.mod_add_mod]
    _ ↔ i ≡ j + (n - a % n) [MOD n] := Nat.ModEq.rfl.add_iff_left

variable [DecidableEq α]

/-- **Round robin.**  Each of the first `n` entries is read once in every `n` turns, and at
most once in what is left of them. -/
theorem count_turns (hl : l.Nodup) (hn : 0 < n) (hle : n ≤ l.length) {j : Nat} (hj : j < n)
    (a k : Nat) :
    (turns l n a k).count (some l[j]) =
      k / n + if (j + (n - a % n)) % n < k % n then 1 else 0 := by
  rw [← Nat.count_modEq_card k hn]
  induction k with
  | zero => rfl
  | succ k ih =>
      rw [turns_succ, List.count_append, ih, Nat.count_succ, List.count_singleton]
      congr 1
      refine if_congr ?_ rfl rfl
      rw [beq_iff_eq]
      exact turn_eq_iff hl hn hle hj a k

theorem count_turns_bounds (hl : l.Nodup) (hn : 0 < n) (hle : n ≤ l.length) {x : α}
    (hx : x ∈ l.take n) (a k : Nat) :
    k / n ≤ (turns l n a k).count (some x) ∧ (turns l n a k).count (some x) ≤ k / n + 1 := by
  obtain ⟨j, hj, rfl⟩ := List.mem_take_iff_getElem.1 hx
  rw [count_turns hl hn hle (by omega)]
  split
  · omega
  · omega

end RoundRobin
