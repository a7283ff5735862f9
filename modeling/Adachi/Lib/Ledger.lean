import Adachi.Lib.Machine
import Mathlib.Data.Finset.Basic
import Mathlib.Data.List.Count
import Mathlib.Logic.Function.Basic

/-!
# Resources with one owner each

A resource is acquired while it is free, handed from its owner to another one, and released by
its owner.  The ledger is the abstract state of all of them: who owns what.  A program keeps the
same knowledge in its own data, scattered over the owners; `Ledger.Matches` relates the two, and
`acquire`, `transfer` and `release` are the rules for a step of the program that does one entry.

## Main results

* `Ledger.Matches.unique`: what the ledger describes has one owner.
* `Ledger.acquired_eq_released`: of every resource, as many acquisitions are made as releases,
  and one more where it is in use.
-/

/-- An entry of a ledger: `owner` takes the free resource `r`, hands it over, gives it back. -/
inductive LedgerEntry (η ρ : Type _) where
  | acquire (owner : η) (r : ρ)
  | transfer (owner next : η) (r : ρ)
  | release (owner : η) (r : ρ)
  deriving DecidableEq

namespace LedgerEntry

variable {η ρ : Type _}

def acquired? : LedgerEntry η ρ → Option ρ
  | .acquire _ r => some r
  | _ => none

def released? : LedgerEntry η ρ → Option ρ
  | .release _ r => some r
  | _ => none

@[simp] theorem acquired_transfers (owner next : η) (rs : List ρ) :
    (rs.map (transfer owner next)).filterMap acquired? = [] := by
  simp [acquired?]

@[simp] theorem released_transfers (owner next : η) (rs : List ρ) :
    (rs.map (transfer owner next)).filterMap released? = [] := by
  simp [released?]

@[simp] theorem acquired_releases (owner : η) (rs : List ρ) :
    (rs.map (release owner)).filterMap acquired? = [] := by
  simp [acquired?]

@[simp] theorem released_releases (owner : η) (rs : List ρ) :
    (rs.map (release owner)).filterMap released? = rs := by
  induction rs with
  | nil => rfl
  | cons r rs ih => exact congrArg (r :: ·) ih

end LedgerEntry

/-- The state says who owns a resource, if it is in use. -/
def ledger (η ρ : Type _) [DecidableEq ρ] : Machine (ρ → Option η) (LedgerEntry η ρ) where
  next own
    | .acquire owner r => Function.update own r (some owner)
    | .transfer _ next r => Function.update own r (some next)
    | .release _ r => Function.update own r none
  enabled own
    | .acquire _ r => own r = none
    | .transfer owner _ r => own r = some owner
    | .release owner r => own r = some owner

namespace Ledger

variable {η ρ : Type _} [DecidableEq ρ] {own : ρ → Option η}

/-! ## Acquisitions and releases -/

/-- **Step lemma.** -/
theorem acquired_step {l : LedgerEntry η ρ} (hl : (ledger η ρ).enabled own l) (r : ρ) :
    l.acquired?.toList.count r + (own r).toList.length =
      l.released?.toList.count r + ((ledger η ρ).next own l r).toList.length := by
  cases l with
  | acquire owner r' =>
      have hfree : own r' = none := hl
      show [r'].count r + _ = [].count r + (Function.update own r' (some owner) r).toList.length
      by_cases hr : r = r'
      · subst hr
        simp [hfree]
      · simp [Function.update_of_ne hr, Ne.symm hr]
  | transfer owner next r' =>
      have howned : own r' = some owner := hl
      show [].count r + _ = [].count r + (Function.update own r' (some next) r).toList.length
      by_cases hr : r = r'
      · subst hr
        simp [howned]
      · simp [Function.update_of_ne hr]
  | release owner r' =>
      have howned : own r' = some owner := hl
      show [].count r + _ = [r'].count r + (Function.update own r' none r).toList.length
      by_cases hr : r = r'
      · subst hr
        simp [howned]
      · simp [Function.update_of_ne hr, Ne.symm hr]

/-- **Run lemma.**  A resource is acquired as often as it is released, and once more if it is in
use at the end and was not at the start. -/
theorem acquired_eq_released {ls : List (LedgerEntry η ρ)} (hlegal : (ledger η ρ).Legal own ls)
    (r : ρ) :
    (ls.filterMap LedgerEntry.acquired?).count r + (own r).toList.length =
      (ls.filterMap LedgerEntry.released?).count r +
        ((ledger η ρ).run own ls r).toList.length := by
  induction ls generalizing own with
  | nil => rfl
  | cons l ls ih =>
      have hstep := acquired_step hlegal.1 r
      have hrest := ih hlegal.2
      have hsplit : ∀ f : LedgerEntry η ρ → Option ρ,
          ((l :: ls).filterMap f).count r = (f l).toList.count r + (ls.filterMap f).count r := by
        intro f
        rw [List.filterMap_cons]
        cases f l with
        | none => simp
        | some r' => simp [List.count_cons, Nat.add_comm]
      rw [hsplit, hsplit, Machine.run_cons]
      omega

/-- An owner releases only what it owns, and nothing twice. -/
theorem owned_of_releases {owner : η} {rs : List ρ}
    (hlegal : (ledger η ρ).Legal own (rs.map (LedgerEntry.release owner))) :
    rs.Nodup ∧ ∀ r ∈ rs, own r = some owner := by
  induction rs generalizing own with
  | nil => exact ⟨List.nodup_nil, nofun⟩
  | cons r rs ih =>
      obtain ⟨hnodup, howned⟩ := ih hlegal.2
      have hfirst : own r = some owner := hlegal.1
      have hnew : r ∉ rs := by
        intro hmem
        have hstill : Function.update own r none r = some owner := howned r hmem
        rw [Function.update_self] at hstill
        cases hstill
      refine ⟨List.nodup_cons.2 ⟨hnew, hnodup⟩, ?_⟩
      intro r' hr'
      rcases List.mem_cons.1 hr' with heq | hmem
      · rw [heq, hfirst]
      · have hne : r' ≠ r := fun heq => hnew (heq ▸ hmem)
        have hrest : Function.update own r none r' = some owner := howned r' hmem
        rwa [Function.update_of_ne hne] at hrest

/-! ## A program that keeps the ledger -/

/-- What the program holds to be in use, and whom it holds to own it, is what the ledger says. -/
structure Matches (own : ρ → Option η) (used : Finset ρ) (Owns : η → ρ → Prop) : Prop where
  used : ∀ r, r ∈ used ↔ (own r).isSome
  owns : ∀ owner r, Owns owner r ↔ own r = some owner

namespace Matches

variable {used : Finset ρ} {Owns Owns' : η → ρ → Prop} {owner next : η} {r : ρ}

omit [DecidableEq ρ] in
theorem unique (h : Matches own used Owns) (hr : Owns owner r) (hr' : Owns next r) :
    owner = next := by
  rw [h.owns] at hr hr'
  exact Option.some.inj (hr.symm.trans hr')

omit [DecidableEq ρ] in
theorem used_iff (h : Matches own used Owns) : r ∈ used ↔ ∃ owner, Owns owner r := by
  rw [h.used, Option.isSome_iff_exists]
  exact exists_congr fun owner => (h.owns owner r).symm

theorem length_eq (h : Matches own used Owns) (r : ρ) :
    (own r).toList.length = if r ∈ used then 1 else 0 := by
  have hused := h.used r
  cases hr : own r with
  | none =>
      rw [hr] at hused
      rw [if_neg (fun hmem => nomatch hused.1 hmem)]
      rfl
  | some owner =>
      rw [hr] at hused
      rw [if_pos (hused.2 rfl)]
      rfl

omit [DecidableEq ρ] in
/-- A step that changes neither -/
theorem frame (h : Matches own used Owns) (howns : ∀ owner r, Owns' owner r ↔ Owns owner r) :
    Matches own used Owns' where
  used := h.used
  owns owner r := (howns owner r).trans (h.owns owner r)

/-- **Rule for acquisitions**: the owner has one resource more. -/
theorem acquire (h : Matches own used Owns) (hfree : r ∉ used)
    (hgains : ∀ r', Owns' owner r' ↔ Owns owner r' ∨ r' = r)
    (hother : ∀ x, x ≠ owner → ∀ r', Owns' x r' ↔ Owns x r') :
    (ledger η ρ).Legal own [.acquire owner r] ∧
      Matches ((ledger η ρ).run own [.acquire owner r]) (insert r used) Owns' := by
  have hnone : own r = none := by
    rw [h.used, Bool.not_eq_true, Option.isSome_eq_false_iff] at hfree
    exact Option.isNone_iff_eq_none.1 hfree
  refine ⟨⟨hnone, trivial⟩, ?_, ?_⟩
  · intro r'
    show _ ↔ (Function.update own r (some owner) r').isSome
    rw [Finset.mem_insert]
    by_cases hr : r' = r
    · simp [hr]
    · simp [hr, h.used]
  · intro x r'
    show _ ↔ Function.update own r (some owner) r' = some x
    by_cases hx : x = owner
    · subst hx
      rw [hgains, h.owns]
      by_cases hr : r' = r
      · simp [hr]
      · simp [hr]
    · rw [hother x hx, h.owns]
      by_cases hr : r' = r
      · simp [hr, hnone, Ne.symm hx]
      · simp [hr]

/-- **Rule for releases**: the owner has one resource less. -/
theorem release (h : Matches own used Owns) (howned : Owns owner r)
    (hloses : ∀ r', Owns' owner r' ↔ Owns owner r' ∧ r' ≠ r)
    (hother : ∀ x, x ≠ owner → ∀ r', Owns' x r' ↔ Owns x r') :
    (ledger η ρ).Legal own [.release owner r] ∧
      Matches ((ledger η ρ).run own [.release owner r]) (used.erase r) Owns' := by
  rw [h.owns] at howned
  refine ⟨⟨howned, trivial⟩, ?_, ?_⟩
  · intro r'
    show _ ↔ (Function.update own r none r').isSome
    rw [Finset.mem_erase]
    by_cases hr : r' = r
    · simp [hr]
    · simp [hr, h.used]
  · intro x r'
    show _ ↔ Function.update own r none r' = some x
    by_cases hx : x = owner
    · subst hx
      rw [hloses, h.owns]
      by_cases hr : r' = r
      · simp [hr]
      · simp [hr]
    · rw [hother x hx, h.owns]
      by_cases hr : r' = r
      · simp [hr, howned, Ne.symm hx]
      · simp [hr]

/-- **Rule for transfers**: one owner has it less, another one more. -/
theorem transfer (h : Matches own used Owns) (howned : Owns owner r)
    (hloses : ∀ r', Owns' owner r' ↔ Owns owner r' ∧ r' ≠ r)
    (hgains : ∀ r', Owns' next r' ↔ Owns next r' ∨ r' = r)
    (hother : ∀ x, x ≠ owner → x ≠ next → ∀ r', Owns' x r' ↔ Owns x r') (hne : next ≠ owner) :
    (ledger η ρ).Legal own [.transfer owner next r] ∧
      Matches ((ledger η ρ).run own [.transfer owner next r]) used Owns' := by
  rw [h.owns] at howned
  refine ⟨⟨howned, trivial⟩, ?_, ?_⟩
  · intro r'
    show _ ↔ (Function.update own r (some next) r').isSome
    by_cases hr : r' = r
    · simp [hr, h.used, howned]
    · simp [hr, h.used]
  · intro x r'
    show _ ↔ Function.update own r (some next) r' = some x
    by_cases hx : x = owner
    · subst hx
      rw [hloses, h.owns]
      by_cases hr : r' = r
      · simp [hr, hne]
      · simp [hr]
    by_cases hx' : x = next
    · subst hx'
      rw [hgains, h.owns]
      by_cases hr : r' = r
      · simp [hr]
      · simp [hr]
    · rw [hother x hx hx', h.owns]
      by_cases hr : r' = r
      · simp [hr, howned, Ne.symm hx, Ne.symm hx']
      · simp [hr]

end Matches

end Ledger
