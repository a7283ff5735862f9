import Adachi.Io.Channel
import Adachi.Lib.Machine
import Mathlib.Logic.Function.Basic

/-!
# Registration and ownership of channels

Any number of channels on one loop, and the loop's interest set in the kernel, which knows
descriptors and not channels: two channels for one number share an entry.  A caller reads from
`GetOwner()` whether a channel is registered (`include/channel.h`), so `owner_` should follow the
interest set.

`owner_` is set before the `EPOLL_CTL_ADD` whose failure leaves it set, and
`RemoveFromLoop` clears it after an `EPOLL_CTL_DEL` that may have failed.  A failing
`EPOLL_CTL_MOD` does no harm.  And nothing in a channel follows what another one does with its
number: a connection that has closed its descriptor may still exist when the number is used again.

## Main results

* `agrees_iff_succeeds`: `owner_` follows the interest set throughout a run exactly when every
  step succeeds, alone with its number where it changes the set.
-/

namespace Adachi.Io

/-- A call on the channel `id`, with the result of the `epoll_ctl` call that it makes; `destruct`
is `~Channel`, and `close` is `close(2)` of a descriptor, which takes it out of the interest
set. -/
inductive ChannelStep where
  | construct (id : Nat) (fd : Nat) (ok : Bool)
  | setActive (id : Nat) (status : Events) (ok : Bool)
  | removeFromLoop (id : Nat) (ok : Bool)
  | destruct (id : Nat)
  | close (fd : Nat)
  deriving DecidableEq

/-- The members of a channel: `fd_`, `events_` and `owner_` -/
structure ChannelObject where
  fd : Nat
  events : Events
  owner : Option LoopId
  deriving DecidableEq

/-- The channels that exist, and the interest set of the loop: what the kernel has for a
descriptor. -/
structure Channels where
  at? : Nat → Option ChannelObject
  interestSet : Nat → Option Events

namespace Channels

def none : Channels := ⟨fun _ => .none, fun _ => .none⟩

/-- A channel and the kernel's entry for its descriptor. -/
def view (cs : Channels) (object : ChannelObject) : Channel :=
  ⟨object.events, object.owner, cs.interestSet object.fd⟩

/-- After a call on the channel `id`. -/
def store (cs : Channels) (id fd : Nat) (channel : Channel) : Channels where
  at? := Function.update cs.at? id (some ⟨fd, channel.events, channel.owner⟩)
  interestSet := Function.update cs.interestSet fd channel.interest

/-- `Channel(loop, fd)` -/
def construct (loop : LoopId) (cs : Channels) (fd : Nat) (ok : Bool) : Channel :=
  match Epoll.addChannel loop (cs.view ⟨fd, 0, .none⟩) ok with
  | (false, channel) => channel
  | (true, channel) => { channel with owner := some loop }

def next (loop : LoopId) (cs : Channels) : ChannelStep → Channels
  | .construct id fd ok => cs.store id fd (construct loop cs fd ok)
  | .setActive id status ok =>
      match cs.at? id with
      | .none => cs
      | some object => cs.store id object.fd ((cs.view object).setActive status ok)
  | .removeFromLoop id ok =>
      match cs.at? id with
      | .none => cs
      | some object => cs.store id object.fd ((cs.view object).removeFromLoop ok)
  | .destruct id => { cs with at? := Function.update cs.at? id .none }
  | .close fd => { cs with interestSet := Function.update cs.interestSet fd .none }

/-- What the kernel has for the descriptor of the channel `id`. -/
def entry (cs : Channels) (id : Nat) : Option Events :=
  (cs.at? id).bind fun object => cs.interestSet object.fd

/-- `EPOLL_CTL_ADD` fails for a descriptor that is in the interest set, `EPOLL_CTL_MOD` and
`EPOLL_CTL_DEL` for one that is not; otherwise the kernel may report what it likes. -/
def Possible (cs : Channels) : ChannelStep → Prop
  | .construct id fd ok => cs.at? id = .none ∧ (ok = true → cs.interestSet fd = .none)
  | .setActive id _ ok => (cs.at? id).isSome ∧ (ok = true → (cs.entry id).isSome)
  | .removeFromLoop id ok => (cs.at? id).isSome ∧ (ok = true → (cs.entry id).isSome)
  | .destruct _ | .close _ => True

instance (cs : Channels) : (l : ChannelStep) → Decidable (cs.Possible l)
  | .construct id fd ok => inferInstanceAs
      (Decidable (cs.at? id = .none ∧ (ok = true → cs.interestSet fd = .none)))
  | .setActive id _ ok =>
      inferInstanceAs (Decidable ((cs.at? id).isSome ∧ (ok = true → (cs.entry id).isSome)))
  | .removeFromLoop id ok =>
      inferInstanceAs (Decidable ((cs.at? id).isSome ∧ (ok = true → (cs.entry id).isSome)))
  | .destruct _ | .close _ => inferInstanceAs (Decidable True)

/-- `GetOwner()` is not null exactly for the channels whose descriptor is registered. -/
def Agrees (cs : Channels) : Prop :=
  ∀ id object, cs.at? id = some object →
    ((cs.view object).getOwner.isSome ↔ (cs.interestSet object.fd).isSome)

/-- No channel but `id` is for the descriptor. -/
def Alone (cs : Channels) (id fd : Nat) : Prop :=
  ∀ other object, cs.at? other = some object → object.fd = fd → other = id

/-- The step does not add a descriptor in vain, nor fail to take one out, and it registers and
unregisters descriptors for one channel only. -/
def Succeeds (cs : Channels) : ChannelStep → Prop
  | .construct id fd ok => if ok then cs.Alone id fd else (cs.interestSet fd).isSome
  | .removeFromLoop id ok => cs.entry id = .none ∨ ok = true ∧
      ∀ object, cs.at? id = some object → cs.Alone id object.fd
  | .close fd => cs.interestSet fd = .none ∨
      ∀ id object, cs.at? id = some object → object.fd ≠ fd
  | .setActive .. | .destruct _ => True

end Channels

def registration (loop : LoopId) : Machine Channels ChannelStep where
  next := Channels.next loop
  enabled := Channels.Possible

instance (loop : LoopId) (cs : Channels) (l : ChannelStep) :
    Decidable ((registration loop).enabled cs l) :=
  inferInstanceAs (Decidable (cs.Possible l))

/-! ## One channel -/

namespace Channel

/-- What `Agrees` says of a single channel. -/
def Agrees (channel : Channel) : Prop := channel.owner.isSome ↔ channel.interest.isSome

theorem setActive_agrees {channel : Channel} (h : channel.Agrees) (status : Events) (ok : Bool) :
    (channel.setActive status ok).Agrees := by
  unfold Agrees at h ⊢
  rw [setActive_owner]
  cases howner : channel.owner with
  | none =>
      rw [howner] at h
      simpa [setActive, howner] using h
  | some loop =>
      rw [howner] at h
      cases ok with
      | true => simp [setActive, Epoll.updateChannel, howner]
      | false => simpa [setActive, Epoll.updateChannel, howner] using h

theorem removeFromLoop_agrees_iff {channel : Channel} (h : channel.Agrees) (ok : Bool) :
    (channel.removeFromLoop ok).Agrees ↔ ok = true ∨ channel.interest = none := by
  unfold Agrees at h ⊢
  rw [removeFromLoop_owner]
  cases howner : channel.owner with
  | none =>
      rw [howner] at h
      have hinterest : channel.interest = none := by simpa using h
      simp [removeFromLoop, howner, hinterest]
  | some loop =>
      rw [howner] at h
      have hinterest : channel.interest ≠ none := by
        intro hnone
        rw [hnone] at h
        simp at h
      cases ok with
      | true => simp [removeFromLoop, Epoll.deleteChannel, howner]
      | false => simp [removeFromLoop, Epoll.deleteChannel, howner, hinterest]

end Channel

/-! ## All of them -/

namespace Channels

variable {cs : Channels} {loop : LoopId} {id fd : Nat} {object : ChannelObject}

theorem construct_owner (loop : LoopId) (cs : Channels) (fd : Nat) (ok : Bool) :
    (construct loop cs fd ok).owner = some loop := by
  cases ok <;> simp [construct, view, Epoll.addChannel]

/-- An `EPOLL_CTL_ADD` that fails leaves the entry as it is. -/
theorem construct_interest (loop : LoopId) (cs : Channels) (fd : Nat) (ok : Bool) :
    (construct loop cs fd ok).interest = if ok then some 0 else cs.interestSet fd := by
  cases ok <;> simp [construct, view, Epoll.addChannel]

theorem agrees_iff :
    cs.Agrees ↔ ∀ id object, cs.at? id = some object → (cs.view object).Agrees := Iff.rfl

/-- A call on a channel changes its members and the entry of its descriptor: the channel has to
agree with the entry, and so have the other channels for the descriptor. -/
theorem Agrees.store_iff (h : cs.Agrees) (channel : Channel) :
    (cs.store id fd channel).Agrees ↔ channel.Agrees ∧
      ((channel.interest.isSome ↔ (cs.interestSet fd).isSome) ∨ cs.Alone id fd) := by
  have hentry : (cs.store id fd channel).interestSet fd = channel.interest :=
    Function.update_self ..
  have hself : (cs.store id fd channel).at? id = some ⟨fd, channel.events, channel.owner⟩ :=
    Function.update_self ..
  have hother : ∀ other, other ≠ id → (cs.store id fd channel).at? other = cs.at? other :=
    fun other hne => Function.update_of_ne hne ..
  constructor
  · intro hstore
    have hagrees := hstore id _ hself
    rw [hentry] at hagrees
    refine ⟨hagrees, or_iff_not_imp_right.2 fun halone => ?_⟩
    unfold Alone at halone
    push Not at halone
    obtain ⟨other, object, hat, hfd, hne⟩ := halone
    have hbefore := h other object hat
    have hafter := hstore other object ((hother other hne).trans hat)
    rw [hfd] at hbefore hafter
    rw [hentry] at hafter
    exact hafter.symm.trans hbefore
  · rintro ⟨hagrees, hrest⟩ other object hat
    by_cases hne : other = id
    · subst hne
      rw [hself] at hat
      obtain rfl := Option.some.inj hat
      rw [hentry]
      exact hagrees
    · rw [hother other hne] at hat
      have hbefore := h other object hat
      by_cases hfd : object.fd = fd
      · rw [hfd] at hbefore ⊢
        rw [hentry]
        have hsame := hrest.resolve_right fun halone => hne (halone other object hat hfd)
        exact hbefore.trans hsame.symm
      · rwa [show (cs.store id fd channel).interestSet object.fd = cs.interestSet object.fd from
          Function.update_of_ne hfd ..]

/-- **Step of a constructor.** -/
theorem Agrees.construct_iff (h : cs.Agrees) {ok : Bool}
    (hl : cs.Possible (.construct id fd ok)) :
    (next loop cs (.construct id fd ok)).Agrees ↔ cs.Succeeds (.construct id fd ok) := by
  show (cs.store id fd _).Agrees ↔ if ok then cs.Alone id fd else (cs.interestSet fd).isSome
  rw [h.store_iff, Channel.Agrees, construct_owner, construct_interest]
  cases ok with
  | true => simp [hl.2 rfl]
  | false => simp

/-- **Step of `SetActive`.** -/
theorem Agrees.setActive (h : cs.Agrees) (hat : cs.at? id = some object) (status : Events)
    (ok : Bool) : (cs.store id object.fd ((cs.view object).setActive status ok)).Agrees := by
  have hview := agrees_iff.1 h id object hat
  have hnext := Channel.setActive_agrees hview status ok
  refine h.store_iff _ |>.2 ⟨hnext, .inl ?_⟩
  unfold Channel.Agrees at hnext
  rw [Channel.setActive_owner] at hnext
  exact hnext.symm.trans hview

/-- **Step of `RemoveFromLoop`.** -/
theorem Agrees.removeFromLoop_iff (h : cs.Agrees) (hat : cs.at? id = some object) (ok : Bool) :
    (cs.store id object.fd ((cs.view object).removeFromLoop ok)).Agrees ↔
      cs.interestSet object.fd = .none ∨ ok = true ∧ cs.Alone id object.fd := by
  have hview := agrees_iff.1 h id object hat
  rw [h.store_iff, Channel.removeFromLoop_agrees_iff hview]
  show (ok = true ∨ cs.interestSet object.fd = .none) ∧ _ ↔ _
  cases hentry : cs.interestSet object.fd with
  | none =>
      have hsame : ((cs.view object).removeFromLoop ok).interest = .none := by
        have howner : object.owner = .none := by
          apply Option.not_isSome_iff_eq_none.1
          intro hsome
          have hregistered := hview.1 hsome
          rw [show (cs.view object).interest = .none from hentry] at hregistered
          cases hregistered
        simp [Channel.removeFromLoop, view, howner, hentry]
      simp [hsame]
  | some events =>
      have howner : object.owner.isSome := hview.2 (by
        rw [show (cs.view object).interest = some events from hentry]
        rfl)
      obtain ⟨loop, hloop⟩ := Option.isSome_iff_exists.1 howner
      cases ok with
      | true => simp [Channel.removeFromLoop, Epoll.deleteChannel, view, hloop]
      | false => simp

/-- **Step.**  A step keeps the agreement if and only if it succeeds. -/
theorem Agrees.next_iff (h : cs.Agrees) {l : ChannelStep} (hl : cs.Possible l) :
    (next loop cs l).Agrees ↔ cs.Succeeds l := by
  cases l with
  | construct id fd ok => exact h.construct_iff hl
  | setActive id status ok =>
      obtain ⟨object, hat⟩ := Option.isSome_iff_exists.1 hl.1
      show (next loop cs (.setActive id status ok)).Agrees ↔ True
      rw [next, hat, iff_true]
      exact h.setActive hat status ok
  | removeFromLoop id ok =>
      obtain ⟨object, hat⟩ := Option.isSome_iff_exists.1 hl.1
      rw [next, Succeeds, entry, hat]
      dsimp only
      rw [h.removeFromLoop_iff hat]
      simp
  | destruct id =>
      show (next loop cs (.destruct id)).Agrees ↔ True
      rw [iff_true]
      intro other object hat
      by_cases hne : other = id
      · subst hne
        rw [show (next loop cs (.destruct other)).at? other = .none from
          Function.update_self ..] at hat
        cases hat
      · rw [show (next loop cs (.destruct id)).at? other = cs.at? other from
          Function.update_of_ne hne ..] at hat
        exact h other object hat
  | close fd =>
      have hentry : (next loop cs (.close fd)).interestSet fd = .none := Function.update_self ..
      show (∀ id object, cs.at? id = some object → (object.owner.isSome ↔
        ((next loop cs (.close fd)).interestSet object.fd).isSome)) ↔ _
      constructor
      · intro hnext
        refine or_iff_not_imp_left.2 fun hregistered id object hat hfd => ?_
        have hbefore := h id object hat
        have hafter := hnext id object hat
        rw [hfd] at hbefore hafter
        rw [hentry] at hafter
        exact hregistered (Option.not_isSome_iff_eq_none.1 fun hsome => by
          cases hafter.1 (hbefore.2 hsome))
      · intro hsucceeds id object hat
        by_cases hfd : object.fd = fd
        · have hnone := hsucceeds.resolve_right fun hunused => hunused id object hat hfd
          rw [hfd, hentry, ← hnone, ← hfd]
          exact h id object hat
        · rw [show (next loop cs (.close fd)).interestSet object.fd = cs.interestSet object.fd from
            Function.update_of_ne hfd ..]
          exact h id object hat

theorem agrees_none : none.Agrees := by
  intro id object hat
  cases hat

/-- **Registration and ownership.**  In any run, with any number of channels for any descriptors
and any order of calls: `GetOwner()` follows the interest set after every call if and only if
every `EPOLL_CTL_ADD` of a constructor succeeds or finds the descriptor registered, every
`EPOLL_CTL_DEL` of a registered descriptor succeeds, no other channel for the descriptor exists
where one of them succeeds, and no descriptor is closed that is registered and has a channel. -/
theorem agrees_iff_succeeds (loop : LoopId) (ls : List ChannelStep)
    (hlegal : (registration loop).Legal none ls) :
    (∀ n ≤ ls.length, ((registration loop).run none (ls.take n)).Agrees) ↔
      (registration loop).Each Succeeds none ls := by
  constructor
  · intro h n hn
    have hbefore := h n (Nat.le_of_lt hn)
    have hafter := h (n + 1) hn
    have hpossible := hlegal.enabled_take _ hn
    rw [Machine.run_take_succ _ _ hn] at hafter
    exact (hbefore.next_iff hpossible).1 hafter
  · intro h n _
    refine (registration loop).run_invariant_each agrees_none ?_ _ (hlegal.take _ n) (h.take _ n)
    intro cs l hcs hl hsucceeds
    exact (hcs.next_iff hl).2 hsucceeds

/-- A channel whose `SetActive` fails, and that is taken out again and destroyed before there is
another one for the number. -/
theorem agrees_iff_succeeds_mod :
    let ls : List ChannelStep :=
      [.construct 0 7 true, .setActive 0 Channel.kRead false, .removeFromLoop 0 true,
        .destruct 0, .construct 1 7 true]
    ((registration 0).run none ls).Agrees := by
  intro ls
  refine (agrees_iff_succeeds 0 ls (by decide)).2 ?_ 5 (by decide)
  simp only [ls, Machine.each_cons, Machine.each_nil, and_true]
  refine ⟨?_, trivial, .inr ⟨rfl, ?_⟩, trivial, ?_⟩
  · intro other object hat
    cases hat
  · intro _ _ other object hat _
    by_contra hne
    simp [registration, next, store, none, Function.update, hne] at hat
  · intro other object hat _
    simp [registration, next, store, none, Function.update] at hat

/-- After a failed `EPOLL_CTL_ADD` the channel looks bound to its loop; after a failed
`EPOLL_CTL_DEL` it looks free and the kernel still reports its events; and a channel that has
been taken out looks free when there is another one for its number. -/
theorem owner_disagrees :
    (∃ object, ((registration 0).run none [.construct 0 7 false]).at? 0 = some object ∧
      object.owner = some 0 ∧
      ((registration 0).run none [.construct 0 7 false]).interestSet object.fd = .none) ∧
    (∃ object, ((registration 0).run none
        [.construct 0 7 true, .removeFromLoop 0 false]).at? 0 = some object ∧
      object.owner = .none ∧
      ((registration 0).run none
        [.construct 0 7 true, .removeFromLoop 0 false]).interestSet object.fd = some 0) ∧
    (∃ object, ((registration 0).run none
        [.construct 0 7 true, .removeFromLoop 0 true, .construct 1 7 true]).at? 0 = some object ∧
      object.owner = .none ∧
      ((registration 0).run none [.construct 0 7 true, .removeFromLoop 0 true,
        .construct 1 7 true]).interestSet object.fd = some 0) ∧
    (registration 0).Legal none [.construct 0 7 false] ∧
    (registration 0).Legal none [.construct 0 7 true, .removeFromLoop 0 false] ∧
    (registration 0).Legal none
      [.construct 0 7 true, .removeFromLoop 0 true, .construct 1 7 true] := by
  refine ⟨⟨_, rfl, rfl, rfl⟩, ⟨_, rfl, rfl, rfl⟩, ⟨_, rfl, rfl, rfl⟩, by decide, by decide,
    by decide⟩

end Channels

end Adachi.Io
