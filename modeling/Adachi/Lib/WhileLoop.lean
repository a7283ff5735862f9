/-!
# Loops that may leave early

`body s` is one turn of a loop: `.inl s'` goes round again, `.inr r` leaves
the loop with result `r`, be it because the loop condition failed or because
the turn returned.  `iterate` runs at most a given number of turns, so a loop
that never leaves yields `none` for every bound.
-/

namespace WhileLoop

variable {σ ρ : Type _}

/-- Run at most `fuel` turns; `none` when they are used up. -/
def iterate (body : σ → σ ⊕ ρ) : Nat → σ → Option ρ
  | 0, _ => none
  | fuel + 1, s =>
      match body s with
      | .inl s' => iterate body fuel s'
      | .inr r => some r

theorem iterate_leave {body : σ → σ ⊕ ρ} {s : σ} {r : ρ} (h : body s = .inr r)
    (fuel : Nat) : iterate body (fuel + 1) s = some r := by
  simp [iterate, h]

theorem iterate_again {body : σ → σ ⊕ ρ} {s s' : σ} (h : body s = .inl s')
    (fuel : Nat) : iterate body (fuel + 1) s = iterate body fuel s' := by
  simp [iterate, h]

/-- **Loop rule.**  Every turn from a state in `I` either leaves with a result
in `Q`, or stays in `I` and makes `measure` smaller and keeps what is still to
be shown about the result.  Then the loop leaves, within `measure s + 1`
turns, with a result that `Q` relates to the first state. -/
theorem iterate_total {body : σ → σ ⊕ ρ} {I : σ → Prop} {Q : σ → ρ → Prop}
    (measure : σ → Nat)
    (hleave : ∀ s r, I s → body s = .inr r → Q s r)
    (hagain : ∀ s s', I s → body s = .inl s' →
      I s' ∧ measure s' < measure s ∧ ∀ r, Q s' r → Q s r) :
    ∀ s, I s → ∃ r, Q s r ∧ ∀ fuel, measure s < fuel → iterate body fuel s = some r := by
  intro s
  induction hm : measure s using Nat.strongRecOn generalizing s with
  | ind m ih =>
      intro hI
      cases hb : body s with
      | inr r =>
          refine ⟨r, hleave s r hI hb, ?_⟩
          intro fuel hfuel
          obtain ⟨fuel, rfl⟩ := Nat.exists_eq_add_one_of_ne_zero (by omega : fuel ≠ 0)
          exact iterate_leave hb fuel
      | inl s' =>
          obtain ⟨hI', hlt, hQ⟩ := hagain s s' hI hb
          obtain ⟨r, hr, hrun⟩ := ih (measure s') (by omega) s' rfl hI'
          refine ⟨r, hQ r hr, ?_⟩
          intro fuel hfuel
          obtain ⟨fuel, rfl⟩ := Nat.exists_eq_add_one_of_ne_zero (by omega : fuel ≠ 0)
          rw [iterate_again hb]
          exact hrun fuel (by omega)

end WhileLoop
