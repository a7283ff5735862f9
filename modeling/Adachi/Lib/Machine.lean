import Mathlib.Data.List.Induction

/-!
# Guarded machines and their runs

A machine moves from state to state under labels.  A label carries whatever
the environment decides in that step (a syscall's result, the thread that
moves), so `next` is a function; `enabled` says which labels the environment
can offer in a state.

`run` is the state after a list of labels and `Legal` says that each of them
was enabled when it came.  Since every prefix of a legal run is legal
(`Legal.of_append`), a statement about the last state of every legal run is a
statement about every state of every legal run.

`collect` gathers what each step contributes to an observation, for instance
the bytes it accepts.
-/

/-- States, labelled steps, and when the environment can offer a label. -/
structure Machine (σ ℓ : Type _) where
  next : σ → ℓ → σ
  enabled : σ → ℓ → Prop

namespace Machine

variable {σ ℓ β : Type _} (M : Machine σ ℓ)

/-- The state after the labels `ls`. -/
def run (s : σ) (ls : List ℓ) : σ := ls.foldl M.next s

/-- Every label of `ls` is enabled in the state it is taken from. -/
def Legal : σ → List ℓ → Prop
  | _, [] => True
  | s, l :: ls => M.enabled s l ∧ Legal (M.next s l) ls

/-- What the steps of a run contribute to an observation, in order. -/
def collect (f : σ → ℓ → List β) : σ → List ℓ → List β
  | _, [] => []
  | s, l :: ls => f s l ++ collect f (M.next s l) ls

/-- Every step of a run has a property, read off the state and the label. -/
def Each (P : σ → ℓ → Prop) (s : σ) (ls : List ℓ) : Prop :=
  ∀ n, (h : n < ls.length) → P (M.run s (ls.take n)) ls[n]

instance decidableEach {P : σ → ℓ → Prop} [∀ s l, Decidable (P s l)] (s : σ) (ls : List ℓ) :
    Decidable (M.Each P s ls) := by
  unfold Each
  infer_instance

instance decidableLegal [∀ s l, Decidable (M.enabled s l)] :
    ∀ s ls, Decidable (M.Legal s ls)
  | _, [] => .isTrue trivial
  | s, l :: ls =>
      let _ := decidableLegal (M.next s l) ls
      inferInstanceAs (Decidable (M.enabled s l ∧ M.Legal (M.next s l) ls))

@[simp] theorem run_nil (s : σ) : M.run s [] = s := rfl

@[simp] theorem run_cons (s : σ) (l : ℓ) (ls : List ℓ) :
    M.run s (l :: ls) = M.run (M.next s l) ls := rfl

theorem run_append (s : σ) (ls ms : List ℓ) :
    M.run s (ls ++ ms) = M.run (M.run s ls) ms := by
  simp [run]

@[simp] theorem run_concat (s : σ) (ls : List ℓ) (l : ℓ) :
    M.run s (ls ++ [l]) = M.next (M.run s ls) l := by
  simp [run]

@[simp] theorem legal_nil (s : σ) : M.Legal s [] := trivial

@[simp] theorem legal_cons (s : σ) (l : ℓ) (ls : List ℓ) :
    M.Legal s (l :: ls) ↔ M.enabled s l ∧ M.Legal (M.next s l) ls := Iff.rfl

theorem legal_append (s : σ) (ls ms : List ℓ) :
    M.Legal s (ls ++ ms) ↔ M.Legal s ls ∧ M.Legal (M.run s ls) ms := by
  induction ls generalizing s with
  | nil => simp
  | cons l ls ih => simp [ih, and_assoc]

/-- Where every label is always enabled, every run is legal. -/
theorem legal_of_enabled (h : ∀ s l, M.enabled s l) (s : σ) (ls : List ℓ) :
    M.Legal s ls := by
  induction ls generalizing s with
  | nil => exact legal_nil M s
  | cons l ls ih => exact ⟨h s l, ih _⟩

/-- A prefix of a legal run is legal. -/
theorem Legal.of_append {s : σ} {ls ms : List ℓ} (h : M.Legal s (ls ++ ms)) :
    M.Legal s ls := ((M.legal_append s ls ms).1 h).1

/-- The label after a prefix of a legal run was enabled there. -/
theorem Legal.enabled_at {s : σ} {ls ms : List ℓ} {l : ℓ}
    (h : M.Legal s (ls ++ l :: ms)) : M.enabled (M.run s ls) l :=
  ((M.legal_append s ls (l :: ms)).1 h).2.1

theorem each_concat {P : σ → ℓ → Prop} (s : σ) (ls : List ℓ) (l : ℓ) :
    M.Each P s (ls ++ [l]) ↔ M.Each P s ls ∧ P (M.run s ls) l := by
  constructor
  · intro h
    constructor
    · intro n hn
      have hstep := h n (by rw [List.length_append]; omega)
      rwa [List.take_append_of_le_length (Nat.le_of_lt hn), List.getElem_append_left hn]
        at hstep
    · simpa using h ls.length (by simp)
  · rintro ⟨h, hlast⟩ n hn
    by_cases hlt : n < ls.length
    · rw [List.take_append_of_le_length (Nat.le_of_lt hlt), List.getElem_append_left hlt]
      exact h n hlt
    · have hn' : n = ls.length := by
        rw [List.length_append, List.length_singleton] at hn
        omega
      subst hn'
      simpa using hlast

@[simp] theorem each_nil {P : σ → ℓ → Prop} (s : σ) : M.Each P s [] :=
  fun _ hn => nomatch hn

theorem each_append {P : σ → ℓ → Prop} (s : σ) (ls ms : List ℓ) :
    M.Each P s (ls ++ ms) ↔ M.Each P s ls ∧ M.Each P (M.run s ls) ms := by
  induction ms using List.reverseRecOn with
  | nil => simp
  | append_singleton ms l ih =>
      rw [← List.append_assoc, each_concat, ih, each_concat, run_append, and_assoc]

theorem each_cons {P : σ → ℓ → Prop} (s : σ) (l : ℓ) (ls : List ℓ) :
    M.Each P s (l :: ls) ↔ P s l ∧ M.Each P (M.next s l) ls := by
  rw [← List.singleton_append, each_append]
  simp [Each]

theorem Each.take {P : σ → ℓ → Prop} {s : σ} {ls : List ℓ} (h : M.Each P s ls) (k : Nat) :
    M.Each P s (ls.take k) := by
  intro n hn
  rw [List.length_take] at hn
  have hstep := h n (by omega)
  rwa [List.take_take, Nat.min_eq_left (by omega), List.getElem_take]

theorem Legal.take {s : σ} {ls : List ℓ} (h : M.Legal s ls) (k : Nat) :
    M.Legal s (ls.take k) := by
  rw [← List.take_append_drop k ls] at h
  exact Legal.of_append M h

theorem Legal.enabled_take {s : σ} {ls : List ℓ} (h : M.Legal s ls) {n : Nat}
    (hn : n < ls.length) : M.enabled (M.run s (ls.take n)) ls[n] := by
  rw [← List.take_append_drop n ls, List.drop_eq_getElem_cons hn] at h
  exact Legal.enabled_at M h

/-- The state after one more step. -/
theorem run_take_succ (s : σ) {ls : List ℓ} {n : Nat} (h : n < ls.length) :
    M.run s (ls.take (n + 1)) = M.next (M.run s (ls.take n)) ls[n] := by
  rw [List.take_succ_eq_append_getElem h, run_concat]

theorem collect_append (f : σ → ℓ → List β) (s : σ) (ls ms : List ℓ) :
    M.collect f s (ls ++ ms) = M.collect f s ls ++ M.collect f (M.run s ls) ms := by
  induction ls generalizing s with
  | nil => rfl
  | cons l ls ih => simp [collect, ih]

@[simp] theorem collect_concat (f : σ → ℓ → List β) (s : σ) (ls : List ℓ) (l : ℓ) :
    M.collect f s (ls ++ [l]) = M.collect f s ls ++ f (M.run s ls) l := by
  simp [collect_append, collect]

/-- **Invariant rule**, for a property of the state and of the run so far. -/
theorem run_invariant_history {s : σ} {I : List ℓ → σ → Prop} (hinit : I [] s)
    (hstep : ∀ ls l, M.Legal s (ls ++ [l]) → I ls (M.run s ls) →
      I (ls ++ [l]) (M.next (M.run s ls) l)) :
    ∀ ls, M.Legal s ls → I ls (M.run s ls) := by
  intro ls
  induction ls using List.reverseRecOn with
  | nil => exact fun _ => hinit
  | append_singleton ls l ih =>
      intro hlegal
      rw [run_concat]
      exact hstep ls l hlegal (ih (Legal.of_append M hlegal))

/-- **Invariant rule**, for a property of the state alone. -/
theorem run_invariant {s : σ} {I : σ → Prop} (hinit : I s)
    (hstep : ∀ s l, I s → M.enabled s l → I (M.next s l)) :
    ∀ ls, M.Legal s ls → I (M.run s ls) := by
  refine M.run_invariant_history (I := fun _ => I) hinit ?_
  intro ls l hlegal hI
  exact hstep _ l hI (Legal.enabled_at M hlegal)

/-- **Invariant rule**, for runs all of whose steps have a property. -/
theorem run_invariant_each {s : σ} {P : σ → ℓ → Prop} {I : σ → Prop} (hinit : I s)
    (hstep : ∀ s l, I s → M.enabled s l → P s l → I (M.next s l)) :
    ∀ ls, M.Legal s ls → M.Each P s ls → I (M.run s ls) := by
  refine M.run_invariant_history (I := fun ls t => M.Each P s ls → I t) (fun _ => hinit) ?_
  intro ls l hlegal ih heach
  rw [each_concat] at heach
  exact hstep _ l (ih heach.1) (Legal.enabled_at M hlegal) heach.2

/-- **Exchange rule.**  Two properties of steps that agree where an invariant holds are had by
the steps of the same runs, if the second keeps the invariant. -/
theorem each_congr {s : σ} {P Q : σ → ℓ → Prop} {I : σ → Prop} (hinit : I s)
    (hagree : ∀ s l, I s → M.enabled s l → (P s l ↔ Q s l))
    (hstep : ∀ s l, I s → M.enabled s l → Q s l → I (M.next s l)) :
    ∀ ls, M.Legal s ls → (M.Each P s ls ↔ M.Each Q s ls) := by
  intro ls
  induction ls using List.reverseRecOn with
  | nil => simp
  | append_singleton ls l ih =>
      intro hlegal
      have hbefore := Legal.of_append M hlegal
      rw [each_concat, each_concat, ih hbefore]
      apply and_congr_right
      intro heach
      exact hagree _ l (M.run_invariant_each hinit hstep ls hbefore heach)
        (Legal.enabled_at M hlegal)

/-- **Simulation rule.**  If every step of `M` is matched by the step of `N` under the same
label, and the two contribute the same to the observation, then so are runs. -/
theorem run_simulates {τ : Type _} {N : Machine τ ℓ} {s : σ} {t : τ} {p : σ → τ → Prop}
    {f : σ → ℓ → List β} {g : τ → ℓ → List β} (hinit : p s t)
    (hstep : ∀ s t l, p s t → M.enabled s l →
      p (M.next s l) (N.next t l) ∧ f s l = g t l) :
    ∀ ls, M.Legal s ls → p (M.run s ls) (N.run t ls) ∧ M.collect f s ls = N.collect g t ls := by
  intro ls
  induction ls using List.reverseRecOn with
  | nil => exact fun _ => ⟨hinit, rfl⟩
  | append_singleton ls l ih =>
      intro hlegal
      rcases ih (Legal.of_append M hlegal) with ⟨hrun, hcollect⟩
      rcases hstep _ _ l hrun (Legal.enabled_at M hlegal) with ⟨hnext, hobserved⟩
      rw [run_concat, run_concat, collect_concat, collect_concat, hcollect, hobserved]
      exact ⟨hnext, rfl⟩

/-- **Refinement rule.**  If every step of `M` that has a property is a step of `N` under
another label, which has a property there and contributes the same to the observation, then
runs of `M` are runs of `N`. -/
theorem run_refines {τ κ : Type _} {N : Machine τ κ} (f : ℓ → κ) {s : σ} {t : τ}
    {P : σ → ℓ → Prop} {Q : τ → κ → Prop} {p : σ → τ → Prop} {obs : σ → ℓ → List β}
    {obs' : τ → κ → List β} (hinit : p s t)
    (hstep : ∀ s t l, p s t → M.enabled s l → P s l →
      (N.enabled t (f l) ∧ Q t (f l)) ∧ p (M.next s l) (N.next t (f l)) ∧
        obs s l = obs' t (f l)) :
    ∀ ls, M.Legal s ls → M.Each P s ls →
      (N.Legal t (ls.map f) ∧ N.Each Q t (ls.map f)) ∧ p (M.run s ls) (N.run t (ls.map f)) ∧
        M.collect obs s ls = N.collect obs' t (ls.map f) := by
  intro ls
  induction ls generalizing s t with
  | nil => exact fun _ _ => ⟨⟨trivial, N.each_nil t⟩, hinit, rfl⟩
  | cons l ls ih =>
      intro hlegal heach
      rw [each_cons] at heach
      obtain ⟨⟨henabled, hQ⟩, hnext, hobs⟩ := hstep s t l hinit hlegal.1 heach.1
      obtain ⟨⟨hrest, hQs⟩, hrun, hcollect⟩ := ih hnext hlegal.2 heach.2
      rw [List.map_cons, N.each_cons]
      refine ⟨⟨⟨henabled, hrest⟩, hQ, hQs⟩, hrun, ?_⟩
      show obs s l ++ _ = obs' t (f l) ++ _
      rw [hobs, hcollect]

/-- **Emission rule.**  If `N` can take the steps that each step of `M` emits, and they relate the
states again, then a run of `M` emits a run of `N`. -/
theorem run_emits {τ κ : Type _} {N : Machine τ κ} {emit : σ → ℓ → List κ} {s : σ} {t : τ}
    {p : σ → τ → Prop} (hinit : p s t)
    (hstep : ∀ s t l, p s t → M.enabled s l →
      N.Legal t (emit s l) ∧ p (M.next s l) (N.run t (emit s l))) :
    ∀ ls, M.Legal s ls →
      N.Legal t (M.collect emit s ls) ∧ p (M.run s ls) (N.run t (M.collect emit s ls)) := by
  intro ls
  induction ls generalizing s t with
  | nil => exact fun _ => ⟨trivial, hinit⟩
  | cons l ls ih =>
      intro hlegal
      obtain ⟨hemitted, hnext⟩ := hstep s t l hinit hlegal.1
      obtain ⟨hrest, hrun⟩ := ih hnext hlegal.2
      show N.Legal t (emit s l ++ _) ∧ p _ (N.run t (emit s l ++ _))
      rw [N.legal_append, N.run_append]
      exact ⟨⟨hemitted, hrest⟩, hrun⟩

/-- Two observations that agree on what can happen agree on runs. -/
theorem collect_congr {f g : σ → ℓ → List β} (h : ∀ s l, M.enabled s l → f s l = g s l)
    {s : σ} {ls : List ℓ} (hlegal : M.Legal s ls) : M.collect f s ls = M.collect g s ls := by
  induction ls generalizing s with
  | nil => rfl
  | cons l ls ih =>
      show f s l ++ _ = g s l ++ _
      rw [h s l hlegal.1, ih hlegal.2]

theorem filterMap_collect {γ : Type _} (p : β → Option γ) (f : σ → ℓ → List β) (s : σ)
    (ls : List ℓ) :
    (M.collect f s ls).filterMap p = M.collect (fun s l => (f s l).filterMap p) s ls := by
  induction ls generalizing s with
  | nil => rfl
  | cons l ls ih =>
      show (f s l ++ _).filterMap p = (f s l).filterMap p ++ _
      rw [List.filterMap_append, ih]

/-! ## A machine inside an invariant -/

/-- The machine in the states of an invariant. -/
def within (I : σ → Prop) : Machine σ ℓ where
  next := M.next
  enabled s l := I s ∧ M.enabled s l

theorem run_within (I : σ → Prop) (s : σ) (ls : List ℓ) : (M.within I).run s ls = M.run s ls :=
  rfl

theorem collect_within (I : σ → Prop) (f : σ → ℓ → List β) (s : σ) (ls : List ℓ) :
    (M.within I).collect f s ls = M.collect f s ls := by
  induction ls generalizing s with
  | nil => rfl
  | cons l ls ih => exact congrArg (f s l ++ ·) (ih _)

/-- An invariant can be taken for granted in every step. -/
theorem Legal.within {I : σ → Prop} {s : σ} (hinit : I s)
    (hstep : ∀ s l, I s → M.enabled s l → I (M.next s l)) {ls : List ℓ} (h : M.Legal s ls) :
    (M.within I).Legal s ls := by
  induction ls generalizing s with
  | nil => trivial
  | cons l ls ih => exact ⟨⟨hinit, h.1⟩, ih (hstep s l hinit h.1) h.2⟩

/-! ## A machine inside another -/

/-- A part of the state of `M` moves as `N` does, under the labels that `emit` gives for each
step of `M`. -/
structure Drives {τ κ : Type _} (N : Machine τ κ) (part : σ → τ) (emit : σ → ℓ → List κ) :
    Prop where
  next : ∀ s l, part (M.next s l) = N.run (part s) (emit s l)
  legal : ∀ s l, M.enabled s l → N.Legal (part s) (emit s l)

namespace Drives

variable {M} {τ κ : Type _} {N : Machine τ κ} {part : σ → τ} {emit : σ → ℓ → List κ}

/-- The part runs as the inner machine does, under all labels emitted. -/
theorem run (h : M.Drives N part emit) (s : σ) (ls : List ℓ) :
    part (M.run s ls) = N.run (part s) (M.collect emit s ls) := by
  induction ls generalizing s with
  | nil => rfl
  | cons l ls ih =>
      rw [run_cons, ih, h.next]
      exact (N.run_append ..).symm

theorem legal_run (h : M.Drives N part emit) {s : σ} {ls : List ℓ} (hlegal : M.Legal s ls) :
    N.Legal (part s) (M.collect emit s ls) := by
  induction ls generalizing s with
  | nil => trivial
  | cons l ls ih =>
      have hrest := ih hlegal.2
      rw [h.next] at hrest
      exact (N.legal_append ..).2 ⟨h.legal s l hlegal.1, hrest⟩

/-- What the inner steps contribute, step by step of the outer machine. -/
theorem collect_eq (h : M.Drives N part emit) (obs : τ → κ → List β) (s : σ) (ls : List ℓ) :
    N.collect obs (part s) (M.collect emit s ls) =
      M.collect (fun s l => N.collect obs (part s) (emit s l)) s ls := by
  induction ls generalizing s with
  | nil => rfl
  | cons l ls ih =>
      show N.collect obs (part s) (emit s l ++ M.collect emit (M.next s l) ls) =
        N.collect obs (part s) (emit s l) ++ M.collect _ (M.next s l) ls
      rw [N.collect_append, ← ih, h.next]

end Drives

end Machine
