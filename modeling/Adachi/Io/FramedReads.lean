import Adachi.Io.BufferQueue
import Adachi.Lib.Framer
import Adachi.Lib.WhileLoop

/-!
# Handlers that read a buffer as a framer does

The loop of an on-message handler takes frames from the front of the read buffer and makes
a call for each.  `Reads` says of one turn that it does what the verdict of a framer on the
unread bytes stands for.

## Main results

* `Reads.drained`: a run of the loop returns, with the buffer drained as by the framer.
* `Reads.fed`: so does a run after a segment has been appended to the buffer.
-/

namespace Adachi.Io

open Framer WhileLoop

variable {η σ ω κ : Type}

/-- What a handler works on: the read buffer, a state of its own, its calls so far. -/
structure Reading (σ κ : Type) where
  buffer : Buffer
  state : σ
  calls : List κ

section Calls

variable (emit : ω → κ) (stop : κ)

/-- The calls that a framer's progress stands for. -/
def callsOf (p : Progress UInt8 σ ω) : List κ :=
  p.out.map emit ++ if p.halted then [stop] else []

theorem callsOf_after (p : Progress UInt8 σ ω) (n : Nat) (out : List ω) :
    callsOf emit stop (p.after n out) = out.map emit ++ callsOf emit stop p := by
  show (out ++ p.out).map emit ++ (if p.halted then [stop] else []) = _
  rw [List.map_append, List.append_assoc]
  rfl

theorem callsOf_open {p : Progress UInt8 σ ω} (h : p.halted = false) :
    callsOf emit stop p = p.out.map emit := by
  unfold callsOf
  rw [h]
  exact List.append_nil _

end Calls

section Turns

variable (F : Framer UInt8 σ ω) (emit : ω → κ) (stop : κ)

/-- A turn does what the framer's verdict says. -/
structure Reads (turn : η → η ⊕ η) (view : η → Reading σ κ) : Prop where
  wait : ∀ h, (view h).buffer.Fits →
    F.verdict (view h).state (view h).buffer.unread = .wait → turn h = .inr h
  halt : ∀ h, (view h).buffer.Fits →
    F.verdict (view h).state (view h).buffer.unread = .halt →
    ∃ h', turn h = .inr h' ∧
      view h' = { view h with calls := (view h).calls ++ [stop] }
  consume : ∀ h n s out, (view h).buffer.Fits →
    F.verdict (view h).state (view h).buffer.unread = .consume n s out →
    ∃ h' b', turn h = .inl h' ∧
      view h' = ⟨b', s, (view h).calls ++ out.map emit⟩ ∧
      b'.Fits ∧ b'.unread = (view h).buffer.unread.drop n

/-- `r'` is where the framer is after draining the buffer of `r`. -/
structure Drained (r r' : Reading σ κ) : Prop where
  fits : r'.buffer.Fits
  unread : r'.buffer.unread = (F.drain r.state r.buffer.unread).pending
  state : r'.state = (F.drain r.state r.buffer.unread).state
  calls : r'.calls = r.calls ++ callsOf emit stop (F.drain r.state r.buffer.unread)

/-- A handler stands where the framer stands. -/
structure Tracks (r : Reading σ κ) (p : Progress UInt8 σ ω) : Prop where
  fits : r.buffer.Fits
  unread : r.buffer.unread = p.pending
  state : r.state = p.state
  calls : r.calls = callsOf emit stop p

variable {F emit stop} {turn : η → η ⊕ η} {view : η → Reading σ κ}

/-- **A run of the loop returns**, and drains the buffer as the framer does. -/
theorem Reads.drained (hreads : Reads F emit stop turn view) {h : η}
    (hfits : (view h).buffer.Fits) :
    ∃ h', Drained F emit stop (view h) (view h') ∧
      ∀ turns, (view h).buffer.unread.length < turns → iterate turn turns h = some h' := by
  refine iterate_total (I := fun h => (view h).buffer.Fits)
    (Q := fun h h' => Drained F emit stop (view h) (view h'))
    (fun h => (view h).buffer.unread.length) ?_ ?_ h hfits
  · intro h r hfits hturn
    cases hverdict : F.verdict (view h).state (view h).buffer.unread with
    | wait =>
        rw [hreads.wait h hfits hverdict] at hturn
        obtain rfl := Sum.inr.inj hturn
        have hdrain := F.drain_wait hverdict
        exact ⟨hfits, by rw [hdrain], by rw [hdrain], by rw [hdrain]; simp [callsOf]⟩
    | halt =>
        obtain ⟨h', hleave, hview⟩ := hreads.halt h hfits hverdict
        rw [hleave] at hturn
        obtain rfl := Sum.inr.inj hturn
        have hdrain := F.drain_halt hverdict
        rw [hview]
        exact ⟨hfits, by rw [hdrain], by rw [hdrain], by rw [hdrain]; rfl⟩
    | consume n s out =>
        obtain ⟨h', b', hagain, _⟩ := hreads.consume h n s out hfits hverdict
        rw [hagain] at hturn
        cases hturn
  · intro h h' hfits hturn
    cases hverdict : F.verdict (view h).state (view h).buffer.unread with
    | wait =>
        rw [hreads.wait h hfits hverdict] at hturn
        cases hturn
    | halt =>
        obtain ⟨h', hleave, _⟩ := hreads.halt h hfits hverdict
        rw [hleave] at hturn
        cases hturn
    | consume n s out =>
        obtain ⟨h', b', hagain, hview, hfits', hunread⟩ :=
          hreads.consume h n s out hfits hverdict
        rw [hagain] at hturn
        obtain rfl := Sum.inl.inj hturn
        have hn := F.consume_pos hverdict
        have hdrain := F.drain_consume hverdict
        rw [hview]
        refine ⟨hfits', ?_, ?_⟩
        · show b'.unread.length < _
          rw [hunread, List.length_drop]
          omega
        · rintro r ⟨rfits, runread, rstate, rcalls⟩
          dsimp only at runread rstate rcalls
          rw [hunread] at runread rstate rcalls
          refine ⟨rfits, by rw [runread, hdrain]; rfl, by rw [rstate, hdrain]; rfl, ?_⟩
          rw [rcalls, hdrain, callsOf_after, List.append_assoc]

theorem tracks_start {r : Reading σ κ} (hfits : r.buffer.Fits) (hunread : r.buffer.unread = [])
    (hcalls : r.calls = []) : Tracks emit stop r (Progress.start r.state) where
  fits := hfits
  unread := hunread
  state := rfl
  calls := hcalls

/-- **A segment arrives** and the handler runs: `h₁` is the handler with the segment in its
buffer. -/
theorem Reads.fed (hreads : Reads F emit stop turn view) {h h₁ : η}
    {p : Progress UInt8 σ ω} (htracks : Tracks emit stop (view h) p)
    (hopen : p.halted = false) {segment : Bytes}
    (hroom : p.pending.length + segment.length < 2 ^ 31)
    (hview : view h₁ =
      { view h with buffer := ((view h).buffer.readFd (.ok segment)).2 }) :
    ∃ h', Tracks emit stop (view h') (F.feed p segment) ∧
      ∀ turns, 2 ^ 31 ≤ turns → iterate turn turns h₁ = some h' := by
  rw [← htracks.unread] at hroom
  obtain ⟨_, rfits, runread⟩ := Buffer.readFd_spec htracks.fits hroom
  have hfits : (view h₁).buffer.Fits := by
    rw [hview]
    exact rfits
  have hunread : (view h₁).buffer.unread = p.pending ++ segment := by
    rw [hview, ← htracks.unread]
    exact runread
  have hstate : (view h₁).state = p.state := by
    rw [hview]
    exact htracks.state
  obtain ⟨h', hdrained, hreturns⟩ := hreads.drained hfits
  refine ⟨h', ?_, ?_⟩
  · have hfeed : F.feed p segment =
        (F.drain (view h₁).state (view h₁).buffer.unread).after p.consumed p.out := by
      rw [hunread, hstate]
      exact F.feed_open hopen segment
    have hcalls : (view h₁).calls = p.out.map emit := by
      rw [hview, ← callsOf_open emit stop hopen]
      exact htracks.calls
    rw [hfeed]
    refine ⟨hdrained.fits, hdrained.unread, hdrained.state, ?_⟩
    rw [callsOf_after, ← hcalls]
    exact hdrained.calls
  · intro turns hturns
    exact hreturns turns (Nat.lt_of_lt_of_le (Buffer.unread_length_lt hfits.toWF) hturns)

end Turns

end Adachi.Io
