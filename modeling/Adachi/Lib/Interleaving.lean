import Adachi.Lib.Machine
import Mathlib.Logic.Function.Basic

/-!
# Machines side by side

A family of machines without shared state, each of which moves whenever it is named.  `own`
is what one of them sees of an interleaving: its own labels, in order.  What it does in the
family is what it does alone with these labels.
-/

namespace Machine

variable {ι σ ℓ : Type _} [DecidableEq ι]

/-- A label names the machine that moves. -/
def family (M : Machine σ ℓ) (ι : Type _) [DecidableEq ι] : Machine (ι → σ) (ι × ℓ) where
  next s l := Function.update s l.1 (M.next (s l.1) l.2)
  enabled s l := M.enabled (s l.1) l.2

/-- The labels of one machine. -/
def own (i : ι) (ls : List (ι × ℓ)) : List ℓ :=
  ls.filterMap fun l => if l.1 = i then some l.2 else none

@[simp] theorem own_nil (i : ι) : own i ([] : List (ι × ℓ)) = [] := rfl

@[simp] theorem own_cons_self (i : ι) (l : ℓ) (ls : List (ι × ℓ)) :
    own i ((i, l) :: ls) = l :: own i ls := by
  simp [own]

theorem own_cons_of_ne {i j : ι} (hne : j ≠ i) (l : ℓ) (ls : List (ι × ℓ)) :
    own i ((j, l) :: ls) = own i ls := by
  simp [own, hne]

variable (M : Machine σ ℓ)

/-- **Projection rule.**  In an interleaving each machine runs as it does alone. -/
theorem run_family (s : ι → σ) (ls : List (ι × ℓ)) (i : ι) :
    (M.family ι).run s ls i = M.run (s i) (own i ls) := by
  induction ls generalizing s with
  | nil => rfl
  | cons l ls ih =>
      obtain ⟨j, l⟩ := l
      rw [run_cons, ih]
      by_cases hne : j = i
      · subst hne
        rw [own_cons_self, run_cons]
        exact congrArg (M.run · _) (Function.update_self ..)
      · rw [own_cons_of_ne hne]
        exact congrArg (M.run · _) (Function.update_of_ne (Ne.symm hne) ..)

/-- What can be done in the interleaving can be done alone. -/
theorem Legal.own {s : ι → σ} {ls : List (ι × ℓ)} (h : (M.family ι).Legal s ls) (i : ι) :
    M.Legal (s i) (own i ls) := by
  induction ls generalizing s with
  | nil => trivial
  | cons l ls ih =>
      obtain ⟨j, l⟩ := l
      obtain ⟨henabled, hrest⟩ := h
      have hown := ih hrest
      by_cases hne : j = i
      · subst hne
        rw [own_cons_self]
        refine ⟨henabled, ?_⟩
        rwa [show (M.family ι).next s (j, l) j = M.next (s j) l from Function.update_self ..]
          at hown
      · rw [own_cons_of_ne hne]
        rwa [show (M.family ι).next s (j, l) i = s i from
          Function.update_of_ne (Ne.symm hne) ..] at hown

end Machine
