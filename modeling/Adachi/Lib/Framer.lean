import Mathlib.Algebra.GroupWithZero.Nat

/-!
# Incremental readers of a stream

A framer looks at the bytes that are buffered and gives a verdict: wait for more,
stop for good, or consume some of them.  What makes the cutting of a stream
into segments invisible is that a verdict, once given, does not depend on
what comes behind the bytes it was given on (`verdict_append`).

`drain` runs a framer on one buffer until it waits or stops, `feed` appends a
segment to what an earlier run left over and drains again.  `Consumes` is the
same reading frame by frame, and `Yields` bounds the output by what is read.

## Main results

* `drain_append`: draining a longer buffer continues the drain of the shorter
  one.
* `feedAll_same_drain`: feeding any segments has the effect of draining their
  concatenation at once, and `feedAll_same_feedAll`: so two ways to cut one
  stream have the same effect.
-/

/-- A verdict on the buffered bytes, with the state and the output after it. -/
inductive Verdict (σ ω : Type _) where
  | wait
  | halt
  | consume (n : Nat) (s : σ) (out : List ω)

/-- Verdicts that stay as they are when more bytes arrive. -/
structure Framer (α σ ω : Type _) where
  verdict : σ → List α → Verdict σ ω
  verdict_nil : ∀ s, verdict s [] = .wait
  consume_pos : ∀ {s xs n s' out}, verdict s xs = .consume n s' out →
    0 < n ∧ n ≤ xs.length
  verdict_append : ∀ {s xs} (ys : List α), verdict s xs ≠ .wait →
    verdict s (xs ++ ys) = verdict s xs

namespace Framer

variable {α σ ω : Type _}

/-- Where a framer stands: its state, all output so far, how many bytes it
consumed, the bytes not consumed, and whether it stopped. -/
structure Progress (α σ ω : Type _) where
  state : σ
  out : List ω
  consumed : Nat
  pending : List α
  halted : Bool

/-- Put what happened earlier in front. -/
def Progress.after (r : Progress α σ ω) (n : Nat) (out : List ω) :
    Progress α σ ω :=
  { r with out := out ++ r.out, consumed := n + r.consumed }

/-- Nothing received yet. -/
def Progress.start (s : σ) : Progress α σ ω := ⟨s, [], 0, [], false⟩

/-- Two framers that stand at the same point: a stopped one may hold any bytes
that arrived with or after the one it stopped at. -/
structure Progress.Same (a b : Progress α σ ω) : Prop where
  state : a.state = b.state
  out : a.out = b.out
  consumed : a.consumed = b.consumed
  halted : a.halted = b.halted
  pending : a.halted = false → a.pending = b.pending

theorem Progress.Same.symm {a b : Progress α σ ω} (h : a.Same b) : b.Same a where
  state := h.state.symm
  out := h.out.symm
  consumed := h.consumed.symm
  halted := h.halted.symm
  pending hb := (h.pending (h.halted.trans hb)).symm

theorem Progress.Same.trans {a b c : Progress α σ ω} (hab : a.Same b)
    (hbc : b.Same c) : a.Same c where
  state := hab.state.trans hbc.state
  out := hab.out.trans hbc.out
  consumed := hab.consumed.trans hbc.consumed
  halted := hab.halted.trans hbc.halted
  pending ha := (hab.pending ha).trans (hbc.pending (hab.halted ▸ ha))

variable (F : Framer α σ ω)

/-- Judge again and again until the framer waits or stops. -/
def drain (s : σ) (xs : List α) : Progress α σ ω :=
  match _h : F.verdict s xs with
  | .wait => ⟨s, [], 0, xs, false⟩
  | .halt => ⟨s, [], 0, xs, true⟩
  | .consume n s' out => (drain s' (xs.drop n)).after n out
termination_by xs.length
decreasing_by
  have := F.consume_pos _h
  simp only [List.length_drop]
  omega

/-! ### One verdict at a time -/

theorem drain_wait {s : σ} {xs : List α} (h : F.verdict s xs = .wait) :
    F.drain s xs = ⟨s, [], 0, xs, false⟩ := by
  rw [drain]
  split <;> simp_all

theorem drain_halt {s : σ} {xs : List α} (h : F.verdict s xs = .halt) :
    F.drain s xs = ⟨s, [], 0, xs, true⟩ := by
  rw [drain]
  split <;> simp_all

theorem drain_consume {s s' : σ} {xs : List α} {n : Nat} {out : List ω}
    (h : F.verdict s xs = .consume n s' out) :
    F.drain s xs = (F.drain s' (xs.drop n)).after n out := by
  rw [drain]
  split <;> simp_all

/-- **Drain rule**: what holds of waiting and of stopping, and passes from the
rest of a buffer to the whole of it, holds of every drain. -/
theorem drain_induction {P : σ → List α → Progress α σ ω → Prop}
    (hwait : ∀ s xs, F.verdict s xs = .wait → P s xs ⟨s, [], 0, xs, false⟩)
    (hhalt : ∀ s xs, F.verdict s xs = .halt → P s xs ⟨s, [], 0, xs, true⟩)
    (hconsume : ∀ s xs n s' out, F.verdict s xs = .consume n s' out →
      P s' (xs.drop n) (F.drain s' (xs.drop n)) →
      P s xs ((F.drain s' (xs.drop n)).after n out)) :
    ∀ s xs, P s xs (F.drain s xs) := by
  intro s xs
  induction hlen : xs.length using Nat.strongRecOn generalizing s xs with
  | ind len ih =>
      cases hd : F.verdict s xs with
      | wait => exact F.drain_wait hd ▸ hwait s xs hd
      | halt => exact F.drain_halt hd ▸ hhalt s xs hd
      | consume n s' out =>
          have hn := F.consume_pos hd
          rw [F.drain_consume hd]
          exact hconsume s xs n s' out hd
            (ih (xs.drop n).length (by simp; omega) s' _ rfl)

/-! ### What a drain leaves -/

/-- A drain splits the buffer into what it consumed and what is pending. -/
theorem drain_pending (s : σ) (xs : List α) :
    (F.drain s xs).consumed ≤ xs.length ∧
      (F.drain s xs).pending = xs.drop (F.drain s xs).consumed := by
  refine F.drain_induction (P := fun _ xs r =>
    r.consumed ≤ xs.length ∧ r.pending = xs.drop r.consumed) ?_ ?_ ?_ s xs
  · intro s xs _
    simp
  · intro s xs _
    simp
  · intro s xs n s' out hd ih
    have hn := F.consume_pos hd
    simp only [Progress.after, List.length_drop, List.drop_drop] at ih ⊢
    exact ⟨by omega, ih.2⟩

/-- A drain that did not stop left bytes on which the framer waits. -/
theorem drain_waits (s : σ) (xs : List α) (h : (F.drain s xs).halted = false) :
    F.verdict (F.drain s xs).state (F.drain s xs).pending = .wait := by
  revert h
  refine F.drain_induction (P := fun _ _ r =>
    r.halted = false → F.verdict r.state r.pending = .wait) ?_ ?_ ?_ s xs
  · exact fun s xs hd _ => hd
  · exact fun s xs _ h => nomatch h
  · exact fun s xs n s' out _ ih => ih

/-- Draining a longer buffer continues the drain of the shorter one. -/
theorem drain_append (s : σ) (xs ys : List α) :
    F.drain s (xs ++ ys) =
      if (F.drain s xs).halted then
        { F.drain s xs with pending := (F.drain s xs).pending ++ ys }
      else
        (F.drain (F.drain s xs).state ((F.drain s xs).pending ++ ys)).after
          (F.drain s xs).consumed (F.drain s xs).out := by
  refine F.drain_induction (P := fun s xs r => F.drain s (xs ++ ys) =
    if r.halted then { r with pending := r.pending ++ ys }
    else (F.drain r.state (r.pending ++ ys)).after r.consumed r.out) ?_ ?_ ?_ s xs
  · intro s xs _
    simp [Progress.after]
  · intro s xs hd
    have happ := F.verdict_append ys (by simp [hd] : F.verdict s xs ≠ .wait)
    simpa using F.drain_halt (happ.trans hd)
  · intro s xs n s' out hd ih
    have hn := F.consume_pos hd
    have happ := F.verdict_append ys (by simp [hd] : F.verdict s xs ≠ .wait)
    rw [F.drain_consume (happ.trans hd), List.drop_append_of_le_length hn.2, ih]
    cases hh : (F.drain s' (xs.drop n)).halted with
    | true => simp [Progress.after, hh]
    | false => simp [Progress.after, hh, Nat.add_assoc]

/-! ### Segments -/

/-- A segment arrives: a stopped framer ignores it. -/
def feed (r : Progress α σ ω) (seg : List α) : Progress α σ ω :=
  if r.halted then r
  else (F.drain r.state (r.pending ++ seg)).after r.consumed r.out

/-- Segments arrive one after the other. -/
def feedAll (r : Progress α σ ω) (segs : List (List α)) : Progress α σ ω :=
  segs.foldl F.feed r

theorem feed_halted {r : Progress α σ ω} (h : r.halted = true) (seg : List α) :
    F.feed r seg = r := by
  simp [feed, h]

theorem feedAll_halted {r : Progress α σ ω} (h : r.halted = true)
    (segs : List (List α)) : F.feedAll r segs = r := by
  induction segs with
  | nil => rfl
  | cons seg segs ih => simpa [feedAll, feed_halted F h] using ih

theorem feed_open {r : Progress α σ ω} (h : r.halted = false) (seg : List α) :
    F.feed r seg = (F.drain r.state (r.pending ++ seg)).after r.consumed r.out := by
  simp [feed, h]

/-- Every byte that was fed is consumed or pending. -/
theorem feed_length {r : Progress α σ ω} (h : r.halted = false) (seg : List α) :
    (F.feed r seg).consumed + (F.feed r seg).pending.length =
      r.consumed + r.pending.length + seg.length := by
  obtain ⟨hle, hpending⟩ := F.drain_pending r.state (r.pending ++ seg)
  rw [List.length_append] at hle
  rw [feed_open F h]
  simp only [Progress.after, hpending, List.length_drop, List.length_append]
  omega

/-- Unless it stops, the framer waits on what is pending after a segment. -/
theorem feed_waits {r : Progress α σ ω} {seg : List α} (h : r.halted = false)
    (hopen : (F.feed r seg).halted = false) :
    F.verdict (F.feed r seg).state (F.feed r seg).pending = .wait := by
  rw [feed_open F h] at hopen ⊢
  exact F.drain_waits _ _ hopen

/-- Feeding after a drain is draining more at once. -/
theorem feedAll_drain_same (s : σ) (xs : List α) (segs : List (List α)) :
    (F.feedAll (F.drain s xs) segs).Same (F.drain s (xs ++ segs.flatten)) := by
  induction segs generalizing xs with
  | nil => simpa [feedAll] using ⟨rfl, rfl, rfl, rfl, fun _ => rfl⟩
  | cons seg segs ih =>
      rw [List.flatten_cons, ← List.append_assoc]
      cases hh : (F.drain s xs).halted with
      | true =>
          rw [F.feedAll_halted hh, List.append_assoc, F.drain_append s xs, if_pos hh]
          exact ⟨rfl, rfl, rfl, rfl, fun h => by simp [hh] at h⟩
      | false =>
          have hfeed : F.feed (F.drain s xs) seg = F.drain s (xs ++ seg) := by
            simp [F.drain_append s xs, feed, hh]
          have := ih (xs ++ seg)
          rwa [← hfeed] at this

theorem drain_nil (s : σ) : F.drain s [] = Progress.start s :=
  F.drain_wait (F.verdict_nil s)

/-- **Segmentation does not matter**: any segments have the effect of their
concatenation arriving at once. -/
theorem feedAll_same_drain (s : σ) (segs : List (List α)) :
    (F.feedAll (Progress.start s) segs).Same (F.drain s segs.flatten) := by
  simpa [F.drain_nil] using F.feedAll_drain_same s [] segs

/-- Two ways to cut one stream have the same effect. -/
theorem feedAll_same_feedAll (s : σ) {segs segs' : List (List α)}
    (h : segs.flatten = segs'.flatten) :
    (F.feedAll (Progress.start s) segs).Same (F.feedAll (Progress.start s) segs') :=
  (F.feedAll_same_drain s segs).trans (h ▸ (F.feedAll_same_drain s segs').symm)

/-! ### Frame by frame -/

/-- From the bytes `xs` in the state `s` the framer comes to `ys` in `s'` by consuming, with
the output `out` on the way. -/
inductive Consumes (F : Framer α σ ω) (s : σ) (xs : List α) :
    List ω → σ → List α → Prop where
  | refl : Consumes F s xs [] s xs
  | step {s' s'' : σ} {ys : List α} {out more : List ω} {n : Nat}
      (h : Consumes F s xs out s' ys) (hverdict : F.verdict s' ys = .consume n s'' more) :
      Consumes F s xs (out ++ more) s'' (ys.drop n)

section Consumes

variable {F} {s s' : σ} {xs ys : List α} {out : List ω}

/-- More bytes do not change what has been consumed. -/
theorem Consumes.append (h : Consumes F s xs out s' ys) (zs : List α) :
    Consumes F s (xs ++ zs) out s' (ys ++ zs) := by
  induction h with
  | refl => exact .refl
  | step _ hverdict ih =>
      have hlen := (F.consume_pos hverdict).2
      have hlonger := F.verdict_append zs (by rw [hverdict]; exact nofun)
      rw [← List.drop_append_of_le_length hlen]
      exact ih.step (hlonger.trans hverdict)

/-- What is put out measures at most `k` for each byte that is consumed for it. -/
def Yields (F : Framer α σ ω) (size : ω → Nat) (k : Nat) : Prop :=
  ∀ s xs n s' more, F.verdict s xs = .consume n s' more → (more.map size).sum ≤ k * n

/-- **Output against input**, with what is still to be read counted in. -/
theorem Consumes.sum_le {size : ω → Nat} {k : Nat} (hyields : Yields F size k)
    (h : Consumes F s xs out s' ys) :
    (out.map size).sum + k * ys.length ≤ k * xs.length := by
  induction h with
  | refl => simp
  | @step s' s'' ys out more n _ hverdict ih =>
      have hlen := Nat.mul_le_mul_left k (F.consume_pos hverdict).2
      have hmore := hyields s' ys n s'' more hverdict
      rw [List.map_append, List.sum_append, List.length_drop, Nat.mul_sub]
      omega

end Consumes

end Framer
