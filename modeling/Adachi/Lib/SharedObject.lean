import Adachi.Lib.Machine
import Mathlib.Logic.Function.Basic

/-!
# Clients of an object behind a lock

Each client works through its own list of operations.  An operation has a part
before the lock (`prepare`), which may find out that the object is not needed, at
most one part under the lock (`exec`), and a part behind it (`reply`).  Only the
part under the lock touches the object, and it is one step; the steps of
different clients come in any order.

An operation takes its place in the common order when its `exec` runs, or, if it
needs none, when it is prepared.  Both lie between its start and its answer, so
the order respects real time as well as the order of each client.

## Main results

* `linearizable`: after any interleaving, the object and the answers are those of
  the operations run one after the other, in the common order.
* `order_append`: the common order of a longer run only adds at the end.
* `run_done`: a client that takes its steps has all its answers, whatever the others do.
* `replay_sim`: two sequential objects that simulate each other give the same
  answers.
-/

/-- The three parts of an operation. -/
structure SharedObject (ω κ ρ σ ε : Type _) where
  prepare : ω → ρ ⊕ κ
  exec : κ → σ → ρ × σ
  reply : ω → ρ → ε

namespace SharedObject

variable {ι ω κ ρ σ τ ε : Type _}

/-! ## Sequential histories -/

/-- The operations of one client in a common order. -/
def opsOf [DecidableEq ι] (c : ι) : List (ι × ω) → List ω
  | [] => []
  | (d, w) :: order => (if d = c then [w] else []) ++ opsOf c order

theorem opsOf_append [DecidableEq ι] (c : ι) (order more : List (ι × ω)) :
    opsOf c (order ++ more) = opsOf c order ++ opsOf c more := by
  induction order with
  | nil => rfl
  | cons op order ih => simp [opsOf, ih]

section Replay

variable (step : σ → ω → ε × σ)

/-- The object after the operations of a common order. -/
def replay : σ → List (ι × ω) → σ
  | s, [] => s
  | s, (_, w) :: order => replay (step s w).2 order

/-- The answers one client gets in a common order. -/
def answersOf [DecidableEq ι] (c : ι) : σ → List (ι × ω) → List ε
  | _, [] => []
  | s, (d, w) :: order =>
      (if d = c then [(step s w).1] else []) ++ answersOf c (step s w).2 order

theorem replay_append (s : σ) (order more : List (ι × ω)) :
    replay step s (order ++ more) = replay step (replay step s order) more := by
  induction order generalizing s with
  | nil => rfl
  | cons op order ih => exact ih _

theorem answersOf_append [DecidableEq ι] (c : ι) (s : σ) (order more : List (ι × ω)) :
    answersOf step c s (order ++ more) =
      answersOf step c s order ++ answersOf step c (replay step s order) more := by
  induction order generalizing s with
  | nil => rfl
  | cons op order ih => simp [answersOf, replay, ih]

/-- Every operation gets one answer. -/
theorem answersOf_length [DecidableEq ι] (c : ι) (s : σ) (order : List (ι × ω)) :
    (answersOf step c s order).length = (opsOf c order).length := by
  induction order generalizing s with
  | nil => rfl
  | cons op order ih =>
      simp only [answersOf, opsOf, List.length_append, ih]
      split <;> rfl

/-- An answer belongs to an operation of its client, and is given on the object that the
operations before leave. -/
theorem answersOf_getElem? [DecidableEq ι] {c : ι} {s : σ} {order : List (ι × ω)} {n : Nat}
    {e : ε} (h : (answersOf step c s order)[n]? = some e) :
    ∃ before w after, order = before ++ (c, w) :: after ∧ (opsOf c before).length = n ∧
      e = (step (replay step s before) w).1 := by
  induction order generalizing s n with
  | nil => cases h
  | cons op order ih =>
      obtain ⟨d, w⟩ := op
      rw [answersOf] at h
      by_cases hd : d = c
      · subst hd
        rw [if_pos rfl, List.singleton_append] at h
        cases n with
        | zero => exact ⟨[], w, order, rfl, rfl, (Option.some.inj h).symm⟩
        | succ n =>
            obtain ⟨before, v, after, rfl, hn, he⟩ := ih h
            refine ⟨(d, w) :: before, v, after, rfl, ?_, he⟩
            rw [opsOf, if_pos rfl, List.singleton_append, List.length_cons, hn]
      · rw [if_neg hd, List.nil_append] at h
        obtain ⟨before, v, after, rfl, hn, he⟩ := ih h
        refine ⟨(d, w) :: before, v, after, rfl, ?_, he⟩
        rw [opsOf, if_neg hd, List.nil_append, hn]

/-- Answers that are passed on through a function. -/
theorem replay_map [DecidableEq ι] {ε' : Type _} (f : ε → ε') (s : σ)
    (order : List (ι × ω)) :
    replay (fun s w => (f (step s w).1, (step s w).2)) s order = replay step s order ∧
      ∀ c, answersOf (fun s w => (f (step s w).1, (step s w).2)) c s order =
        (answersOf step c s order).map f := by
  induction order generalizing s with
  | nil => exact ⟨rfl, fun _ => rfl⟩
  | cons op order ih =>
      obtain ⟨hreplay, hanswers⟩ := ih (step s op.2).2
      refine ⟨hreplay, ?_⟩
      intro c
      simp only [answersOf, hanswers, List.map_append]
      split <;> rfl

/-- Sequential objects in lockstep. -/
theorem replay_sim [DecidableEq ι] (step' : τ → ω → ε × τ) {R : σ → τ → Prop}
    (hstep : ∀ s t w, R s t →
      (step s w).1 = (step' t w).1 ∧ R (step s w).2 (step' t w).2)
    {s : σ} {t : τ} (h : R s t) (order : List (ι × ω)) :
    R (replay step s order) (replay step' t order) ∧
      ∀ c, answersOf step c s order = answersOf step' c t order := by
  induction order generalizing s t with
  | nil => exact ⟨h, fun _ => rfl⟩
  | cons op order ih =>
      obtain ⟨hans, hnext⟩ := hstep s t op.2 h
      obtain ⟨hR, hrest⟩ := ih hnext
      refine ⟨hR, ?_⟩
      intro c
      simp only [answersOf, hans, hrest c]

end Replay

/-! ## Clients and their steps -/

/-- Where a client stands in its current operation. -/
inductive Phase (ω κ ρ : Type _) where
  | idle
  | calling (w : ω) (k : κ)
  | replying (w : ω) (r : ρ)

/-- A client: the operations it has not begun, its phase, its answers so far. -/
structure Client (ω κ ρ ε : Type _) where
  todo : List ω
  phase : Phase ω κ ρ
  answers : List ε

/-- The object and its clients. -/
structure System (ι ω κ ρ σ ε : Type _) where
  object : σ
  client : ι → Client ω κ ρ ε

/-- The object after a step of client `c`, which leaves it as `me`. -/
def System.set [DecidableEq ι] (s : System ι ω κ ρ σ ε) (o : σ) (c : ι)
    (me : Client ω κ ρ ε) : System ι ω κ ρ σ ε :=
  ⟨o, Function.update s.client c me⟩

section Set

variable [DecidableEq ι] (s : System ι ω κ ρ σ ε) (o : σ) (c : ι) (me : Client ω κ ρ ε)

theorem System.set_client_self : (s.set o c me).client c = me := Function.update_self ..

variable {o c me} in
theorem System.set_client_of_ne {d : ι} (h : d ≠ c) :
    (s.set o c me).client d = s.client d := Function.update_of_ne h ..

end Set

/-- The operation a client has begun and that is not in the common order yet. -/
def Client.begun (c : Client ω κ ρ ε) : List ω :=
  match c.phase with
  | .calling w _ => [w]
  | _ => []

section Steps

variable [DecidableEq ι] (O : SharedObject ω κ ρ σ ε)

/-- The answer a client has been given and not sent yet. -/
def pending (c : Client ω κ ρ ε) : List ε :=
  match c.phase with
  | .replying w r => [O.reply w r]
  | _ => []

/-- One operation on its own. -/
def apply (s : σ) (w : ω) : ε × σ :=
  match O.prepare w with
  | .inl r => (O.reply w r, s)
  | .inr k => (O.reply w (O.exec k s).1, (O.exec k s).2)

/-- Before the first step. -/
def start (s : σ) (requests : ι → List ω) : System ι ω κ ρ σ ε :=
  ⟨s, fun c => ⟨requests c, .idle, []⟩⟩

/-- The phase that follows `prepare`. -/
def begin (w : ω) : Phase ω κ ρ :=
  match O.prepare w with
  | .inl r => .replying w r
  | .inr k => .calling w k

/-- A step of client `c`; a client that is done does nothing. -/
def step (s : System ι ω κ ρ σ ε) (c : ι) : System ι ω κ ρ σ ε :=
  let me := s.client c
  match me.phase with
  | .idle =>
      match me.todo with
      | [] => s
      | w :: todo => s.set s.object c ⟨todo, O.begin w, me.answers⟩
  | .calling w k =>
      let (r, o) := O.exec k s.object
      s.set o c ⟨me.todo, .replying w r, me.answers⟩
  | .replying w r => s.set s.object c ⟨me.todo, .idle, me.answers ++ [O.reply w r]⟩

/-- The operation that takes its place in the common order at a step of `c`. -/
def placed (s : System ι ω κ ρ σ ε) (c : ι) : List (ι × ω) :=
  match (s.client c).phase with
  | .idle =>
      match (s.client c).todo with
      | [] => []
      | w :: _ =>
          match O.prepare w with
          | .inl _ => [(c, w)]
          | .inr _ => []
  | .calling w _ => [(c, w)]
  | .replying _ _ => []

/-- The clients may step in any order. -/
def machine : Machine (System ι ω κ ρ σ ε) ι where
  next := O.step
  enabled _ _ := True

/-- The common order of a run. -/
def order (s : σ) (requests : ι → List ω) (run : List ι) : List (ι × ω) :=
  O.machine.collect O.placed (start s requests) run

theorem order_append (s : σ) (requests : ι → List ω) (run more : List ι) :
    O.order s requests run <+: O.order s requests (run ++ more) := by
  unfold order
  rw [Machine.collect_append]
  exact List.prefix_append ..

/-! ## The invariant -/

/-- What a common order accounts for in a system. -/
structure Accounted (s₀ : σ) (requests : ι → List ω) (order : List (ι × ω))
    (s : System ι ω κ ρ σ ε) : Prop where
  object : s.object = replay O.apply s₀ order
  ops : ∀ c, opsOf c order ++ ((s.client c).begun ++ (s.client c).todo) = requests c
  answers : ∀ c, answersOf O.apply c s₀ order =
    (s.client c).answers ++ O.pending (s.client c)
  calls : ∀ c w k, (s.client c).phase = .calling w k → O.prepare w = .inr k

variable {O} {s₀ : σ} {requests : ι → List ω} {order : List (ι × ω)}
  {s : System ι ω κ ρ σ ε}

theorem Accounted.start : Accounted O s₀ requests [] (start s₀ requests) where
  object := rfl
  ops _ := rfl
  answers _ := rfl
  calls _ _ _ h := nomatch h

/-- A step of one client leaves what is accounted for the others. -/
theorem Accounted.update {o : σ} {more : List (ι × ω)} {c : ι} {me : Client ω κ ρ ε}
    (h : Accounted O s₀ requests order s)
    (hother : ∀ d, d ≠ c → opsOf d more = [] ∧
      answersOf O.apply d (replay O.apply s₀ order) more = [])
    (hobject : o = replay O.apply s.object more)
    (hops : opsOf c more ++ (me.begun ++ me.todo) =
      (s.client c).begun ++ (s.client c).todo)
    (hanswers : me.answers ++ O.pending me = (s.client c).answers ++
      O.pending (s.client c) ++ answersOf O.apply c s.object more)
    (hcalls : ∀ w k, me.phase = .calling w k → O.prepare w = .inr k) :
    Accounted O s₀ requests (order ++ more) (s.set o c me) where
  object := by rw [replay_append, ← h.object, ← hobject]; rfl
  ops d := by
    rw [opsOf_append]
    by_cases hd : d = c
    · subst hd
      rw [s.set_client_self, List.append_assoc, hops, h.ops]
    · rw [s.set_client_of_ne hd, (hother d hd).1, List.append_nil, h.ops]
  answers d := by
    rw [answersOf_append]
    by_cases hd : d = c
    · subst hd
      rw [s.set_client_self, hanswers, h.answers, h.object]
    · rw [s.set_client_of_ne hd, (hother d hd).2, List.append_nil, h.answers]
  calls d w k hphase := by
    by_cases hd : d = c
    · subst hd
      rw [s.set_client_self] at hphase
      exact hcalls w k hphase
    · rw [s.set_client_of_ne hd] at hphase
      exact h.calls d w k hphase

/-- **Step lemma.** -/
theorem Accounted.step (h : Accounted O s₀ requests order s) (c : ι) :
    Accounted O s₀ requests (order ++ O.placed s c) (O.step s c) := by
  have hnone : ∀ d, d ≠ c → opsOf d ([] : List (ι × ω)) = [] ∧
      answersOf O.apply d (replay O.apply s₀ order) ([] : List (ι × ω)) = [] :=
    fun _ _ => ⟨rfl, rfl⟩
  have hone : ∀ w d, d ≠ c → opsOf d [(c, w)] = [] ∧
      answersOf O.apply d (replay O.apply s₀ order) [(c, w)] = [] := by
    intro w d hd
    simp [opsOf, answersOf, Ne.symm hd]
  unfold SharedObject.step placed
  dsimp only
  cases hphase : (s.client c).phase with
  | idle =>
      cases htodo : (s.client c).todo with
      | nil => simpa using h
      | cons w todo =>
          cases hprepare : O.prepare w with
          | inl r =>
              simp only [hprepare]
              refine h.update (hone w) ?_ ?_ ?_ ?_ <;>
                simp [replay, apply, opsOf, answersOf, pending, begin, Client.begun, *]
          | inr k =>
              simp only [hprepare]
              refine h.update hnone ?_ ?_ ?_ ?_ <;>
                simp [replay, opsOf, answersOf, pending, begin, Client.begun, *]
  | calling w k =>
      have hprepare := h.calls c w k hphase
      refine h.update (hone w) ?_ ?_ ?_ ?_ <;>
        simp [replay, apply, opsOf, answersOf, pending, Client.begun, *]
  | replying w r =>
      refine h.update hnone ?_ ?_ ?_ ?_ <;>
        simp [replay, opsOf, answersOf, pending, Client.begun, *]

/-- **Linearizability**, for every interleaving. -/
theorem linearizable (O : SharedObject ω κ ρ σ ε) (s₀ : σ) (requests : ι → List ω)
    (run : List ι) :
    Accounted O s₀ requests (O.order s₀ requests run)
      (O.machine.run (SharedObject.start s₀ requests) run) := by
  refine O.machine.run_invariant_history
    (I := fun run => Accounted O s₀ requests (O.order s₀ requests run)) ?_ ?_ run ?_
  · exact .start
  · intro ls c _ h
    unfold SharedObject.order at h ⊢
    rw [Machine.collect_concat]
    exact h.step c
  · exact O.machine.legal_of_enabled (fun _ _ => trivial) _ run

/-! ## Progress -/

/-- The steps a client needs at most to be done. -/
def Client.left (me : Client ω κ ρ ε) : Nat :=
  3 * me.todo.length +
    match me.phase with
    | .idle => 0
    | .calling _ _ => 2
    | .replying _ _ => 1

omit [DecidableEq ι] in
theorem Client.done_of_left {me : Client ω κ ρ ε} (h : me.left = 0) :
    me.todo = [] ∧ me.phase = .idle := by
  unfold Client.left at h
  have htodo : me.todo = [] := List.length_eq_zero_iff.1 (by omega)
  refine ⟨htodo, ?_⟩
  cases hphase : me.phase with
  | idle => rfl
  | calling w k | replying w r =>
      rw [hphase] at h
      dsimp only at h
      omega

/-- **Step.**  A step of a client is one that it needs, unless it is done. -/
theorem step_left (O : SharedObject ω κ ρ σ ε) (s : System ι ω κ ρ σ ε) (c : ι) :
    ((O.step s c).client c).left ≤ (s.client c).left - 1 := by
  unfold SharedObject.step
  dsimp only
  cases hphase : (s.client c).phase with
  | idle =>
      cases htodo : (s.client c).todo with
      | nil => simp [Client.left, hphase, htodo]
      | cons w todo =>
          simp only [System.set_client_self, Client.left, hphase, htodo, begin, List.length_cons]
          cases O.prepare w with
          | inl r =>
              dsimp only
              omega
          | inr k =>
              dsimp only
              omega
  | calling w k =>
      simp only [System.set_client_self, Client.left, hphase]
      omega
  | replying w r =>
      simp only [System.set_client_self, Client.left, hphase]
      omega

/-- **Frame.**  A step of a client leaves the others alone. -/
theorem step_client_of_ne (O : SharedObject ω κ ρ σ ε) (s : System ι ω κ ρ σ ε) {c d : ι}
    (h : d ≠ c) : (O.step s c).client d = s.client d := by
  unfold SharedObject.step
  dsimp only
  split
  · split
    · rfl
    · exact s.set_client_of_ne h
  · exact s.set_client_of_ne h
  · exact s.set_client_of_ne h

/-- **Run.**  Whatever the others do in between, each step of a client brings it nearer to its
end. -/
theorem run_left (O : SharedObject ω κ ρ σ ε) (s : System ι ω κ ρ σ ε) (c : ι) (run : List ι) :
    ((O.machine.run s run).client c).left ≤ (s.client c).left - run.count c := by
  induction run generalizing s with
  | nil => exact Nat.le_refl _
  | cons d run ih =>
      have hrest := ih (O.step s d)
      by_cases hd : d = c
      · subst hd
        have hstep := O.step_left s d
        rw [List.count_cons_self]
        show ((O.machine.run (O.step s d) run).client d).left ≤ _
        omega
      · rw [O.step_client_of_ne s (Ne.symm hd)] at hrest
        rw [List.count_cons_of_ne hd]
        exact hrest

/-- Three steps for each of its operations, and a client is done. -/
theorem run_done (O : SharedObject ω κ ρ σ ε) (s₀ : σ) (requests : ι → List ω) (run : List ι)
    {c : ι} (h : 3 * (requests c).length ≤ run.count c) :
    let me := (O.machine.run (SharedObject.start s₀ requests) run).client c
    me.todo = [] ∧ me.phase = .idle := by
  apply Client.done_of_left
  have hleft := O.run_left (SharedObject.start s₀ requests) c run
  have hstart : ((SharedObject.start s₀ requests : System ι ω κ ρ σ ε).client c).left =
      3 * (requests c).length := rfl
  omega

end Steps

end SharedObject
