import Adachi.Io.FramedReads
import Adachi.Kv.EchoSpec
import Adachi.Kv.FrameChecks
import Adachi.Kv.KvServer
import Adachi.Lib.Framer

/-!
# The handler does not see segments

The handler's loop is an incremental reader (`kvFramer`): what a turn does depends
on the frame at the front of the buffer and on nothing behind it.  So it does not
matter how TCP cuts the stream.

## Main results

* `onMessageTurn_reads`: a turn of the handler's loop reads requests as the framer
  does.
* `segmentation_invisible`: two ways to cut a stream lead to the same calls, the
  same store and the same point of closing.
-/

namespace Adachi.Kv

open Adachi.Io ByteOrder WhileLoop Framer

/-! ## Frames that have begun -/

/-- Fewer than 24 bytes are the beginning of a frame that is longer. -/
theorem exists_frame_of_short {xs : Bytes} (h : xs.length < 24) :
    ∃ p : Packet, p.Framed ∧ xs <+: packetBytes p ∧ xs.length < (packetBytes p).length := by
  let padded := xs ++ List.replicate (24 - xs.length) (0 : UInt8)
  have hpadded : padded.length = 24 := by
    rw [List.length_append, List.length_replicate]
    omega
  let p : Packet := ⟨headAt padded, List.replicate (headAt padded).bodyLength.toNat 0⟩
  have hbytes : packetBytes p = padded ++ p.body := by
    change headBytes (headAt padded) ++ p.body = padded ++ p.body
    rw [headBytes_headAt (Nat.le_of_eq hpadded.symm), List.take_of_length_le (by omega)]
  refine ⟨p, List.length_replicate.symm, ?_, ?_⟩
  · rw [hbytes, List.append_assoc]
    exact List.prefix_append ..
  · rw [packetBytes_length]
    omega

/-! ## The framer -/

section Verdict

variable [Host]

/-- What the handler does with the bytes at the front of the buffer. -/
def kvVerdict (kvstore : KVStore) (xs : Bytes) : Verdict KVStore Bytes :=
  if xs.length < 24 then .wait
  else if (headAt xs).Broken ∨ (headAt xs).bodyLength ≠ 0 then .halt
  else
    let (echo, kvstore) := echoObject.apply kvstore (checkedPacket ⟨headAt xs, []⟩)
    .consume 24 kvstore (echo.toList.map packetBytes)

omit [Host] in
theorem headAt_append {xs : Bytes} (h : 24 ≤ xs.length) (ys : Bytes) :
    headAt (xs ++ ys) = headAt xs := by
  rw [← headAt_take (xs ++ ys) h, List.take_left]

theorem kvVerdict_wait_iff (kvstore : KVStore) (xs : Bytes) :
    kvVerdict kvstore xs = .wait ↔ xs.length < 24 := by
  unfold kvVerdict
  split
  · rename_i h
    exact iff_of_true rfl h
  · rename_i h
    split <;> simpa using h

/-- Only on a whole head is there a verdict. -/
theorem head_of_verdict {kvstore : KVStore} {xs : Bytes} {verdict : Verdict KVStore Bytes}
    (h : kvVerdict kvstore xs = verdict) (hwait : verdict ≠ .wait) : ¬xs.length < 24 := by
  rw [← kvVerdict_wait_iff kvstore xs, h]
  exact hwait

/-- Requests as an incremental reader. -/
def kvFramer : Framer UInt8 KVStore Bytes where
  verdict := kvVerdict
  verdict_nil kvstore := (kvVerdict_wait_iff kvstore []).2 (by decide)
  consume_pos := by
    intro kvstore xs n next out h
    have h24 := head_of_verdict h nofun
    unfold kvVerdict at h
    rw [if_neg h24] at h
    split at h
    · cases h
    · cases h
      omega
  verdict_append := by
    intro kvstore xs ys h
    rw [Ne, kvVerdict_wait_iff] at h
    unfold kvVerdict
    rw [if_neg h, if_neg (by rw [List.length_append]; omega), headAt_append (by omega)]

/-! ## One turn of the loop -/

variable {h : Handler}

theorem onMessageTurn_wait (hfits : h.buffer.Fits)
    (hverdict : kvVerdict h.kvstore h.buffer.unread = .wait) :
    onMessageTurn KVService.default h = .inr h := by
  rw [kvVerdict_wait_iff] at hverdict
  unfold onMessageTurn
  rw [Buffer.size_eq hfits.toWF, if_neg]
  exact Nat.not_le.2 hverdict

theorem onMessageTurn_halt (hfits : h.buffer.Fits)
    (hverdict : kvVerdict h.kvstore h.buffer.unread = .halt) :
    onMessageTurn KVService.default h = .inr (h.call .close) := by
  have h24 := head_of_verdict hverdict nofun
  unfold kvVerdict at hverdict
  rw [if_neg h24] at hverdict
  split at hverdict
  · rename_i hrejected
    unfold onMessageTurn
    rw [if_pos (Nat.not_lt.1 (not_size_lt_head hfits.toWF (Nat.not_lt.1 h24))), if_pos]
    exact (kDefaultHeadCheck_iff hfits.toWF (Nat.not_lt.1 h24)).2 hrejected
  · cases hverdict

theorem onMessageTurn_consume (hfits : h.buffer.Fits) {n : Nat} {kvstore : KVStore}
    {out : List Bytes}
    (hverdict : kvVerdict h.kvstore h.buffer.unread = .consume n kvstore out) :
    ∃ b', onMessageTurn KVService.default h =
        .inl ⟨b', kvstore, h.calls ++ out.map .write⟩ ∧
      b'.Fits ∧ b'.unread = h.buffer.unread.drop n := by
  have h24 := head_of_verdict hverdict nofun
  unfold kvVerdict at hverdict
  rw [if_neg h24] at hverdict
  split at hverdict
  · cases hverdict
  rename_i haccepted
  generalize hserved : echoObject.apply h.kvstore
    (checkedPacket ⟨headAt h.buffer.unread, []⟩) = served at hverdict
  obtain ⟨echo, kvstore⟩ := served
  obtain ⟨rfl, rfl, rfl⟩ := Verdict.consume.inj hverdict
  have hzero : (headAt h.buffer.unread).bodyLength = 0 := by
    by_contra hne
    exact haccepted (.inr hne)
  have hhead : KVService.default.headCheck h.buffer = false := by
    rw [← Bool.not_eq_true]
    intro hreject
    exact haccepted ((kDefaultHeadCheck_iff hfits.toWF (Nat.not_lt.1 h24)).1 hreject)
  have hget : KVService.default.shouldGet h.buffer = true :=
    (kDefaultShouldGet_iff hfits.toWF (Nat.not_lt.1 h24)).2 hzero
  obtain ⟨b', hbody, hwf, hunread, hbuffer⟩ :=
    kDefaultBodyCheck_spec hfits.toWF (Nat.not_lt.1 h24) hzero
  refine ⟨b', ?_, ⟨hwf, hbuffer ▸ hfits.capacity_lt⟩, hunread⟩
  unfold onMessageTurn
  rw [if_pos (Nat.not_lt.1 (not_size_lt_head hfits.toWF (Nat.not_lt.1 h24))), hhead, hget,
    show KVService.default.bodyCheck h.buffer = _ from hbody]
  simp only [Bool.false_eq_true, if_false, Bool.not_true, shouldEcho_eq, hserved]
  cases echo with
  | none => simp
  | some echo =>
      dsimp only
      rw [encodePacketToFlow_eq]
      rfl

/-! ## One run of the handler -/

omit [Host] in
/-- The calls a reader's progress stands for. -/
def progressCalls (r : Progress UInt8 KVStore Bytes) : List Call :=
  r.out.map .write ++ if r.halted then [.close] else []

/-- What the handler works on. -/
def Handler.reading (h : Handler) : Reading KVStore Call := ⟨h.buffer, h.kvstore, h.calls⟩

/-- A turn of the handler's loop reads requests as the framer does. -/
theorem onMessageTurn_reads :
    Reads kvFramer Call.write Call.close (onMessageTurn KVService.default)
      Handler.reading where
  wait _ hfits hverdict := onMessageTurn_wait hfits hverdict
  halt h hfits hverdict := ⟨h.call .close, onMessageTurn_halt hfits hverdict, rfl⟩
  consume h n kvstore out hfits hverdict := by
    obtain ⟨b', hagain, hfits', hunread⟩ := onMessageTurn_consume hfits hverdict
    exact ⟨_, b', hagain, rfl, hfits', hunread⟩

/-! ## Segment by segment -/

/-- A session stands where the reader stands. -/
structure Session.Tracks (s : Session) (r : Progress UInt8 KVStore Bytes) : Prop where
  fits : s.handler.buffer.Fits
  unread : s.handler.buffer.unread = r.pending
  kvstore : s.handler.kvstore = r.state
  calls : s.handler.calls = progressCalls r
  received : s.received = r.consumed + r.pending.length
  short : r.halted = false → r.pending.length < 24

omit [Host] in
theorem Session.Tracks.closed_eq {s : Session} {r : Progress UInt8 KVStore Bytes}
    (h : s.Tracks r) : s.closed = r.halted := by
  unfold Session.closed
  rw [h.calls, progressCalls]
  cases hhalted : r.halted with
  | true => simp
  | false => simp

omit [Host] in
theorem Session.Tracks.consumed_eq {s : Session} {r : Progress UInt8 KVStore Bytes}
    (h : s.Tracks r) : s.consumed = r.consumed := by
  unfold Session.consumed
  rw [Buffer.size_eq h.fits.toWF, h.unread, h.received, Nat.add_sub_cancel]

omit [Host] in
theorem Session.tracks_start (kvstore : KVStore) :
    (Session.start kvstore).Tracks (Progress.start kvstore) where
  fits := Buffer.new_fits (by decide)
  unread := Buffer.unread_new _
  kvstore := rfl
  calls := rfl
  received := rfl
  short _ := Nat.zero_lt_succ 23

/-- **Step lemma**: a segment arrives. -/
theorem Session.Tracks.receive {s : Session} {r : Progress UInt8 KVStore Bytes}
    (h : s.Tracks r) {segment : Bytes} (hlen : segment.length ≤ maxRwCount) :
    ∃ s', s'.Tracks (kvFramer.feed r segment) ∧ ∀ turns, 2 ^ 31 ≤ turns →
      Kv.receive KVService.default turns s segment = some s' := by
  cases hhalted : r.halted with
  | true =>
      refine ⟨s, ?_, ?_⟩
      · rw [kvFramer.feed_halted hhalted]
        exact h
      · intro turns _
        rw [Kv.receive, h.closed_eq, hhalted, if_pos rfl]
  | false =>
      have hshort := h.short hhalted
      have hroom : r.pending.length + segment.length < 2 ^ 31 := by
        unfold maxRwCount at hlen
        omega
      have htracks : Io.Tracks Call.write Call.close s.handler.reading r :=
        ⟨h.fits, h.unread, h.kvstore, h.calls⟩
      let h₁ : Handler :=
        { s.handler with buffer := (s.handler.buffer.readFd (.ok segment)).2 }
      obtain ⟨h', hfed, hreturns⟩ :=
        onMessageTurn_reads.fed htracks hhalted hroom (show h₁.reading = _ from rfl)
      refine ⟨⟨h', s.received + segment.length⟩, ?_, ?_⟩
      · refine ⟨hfed.fits, hfed.unread, hfed.state, hfed.calls, ?_, ?_⟩
        · have hcount := kvFramer.feed_length hhalted segment
          have hreceived := h.received
          dsimp only
          omega
        · intro hwaits
          exact (kvVerdict_wait_iff _ _).1 (kvFramer.feed_waits hhalted hwaits)
      · intro turns hturns
        rw [Kv.receive, h.closed_eq, hhalted, if_neg Bool.false_ne_true]
        show (iterate _ turns h₁ >>= fun handler => some _) = _
        rw [hreturns turns hturns]
        rfl

/-- **Run lemma**: segments arrive one after the other. -/
theorem Session.Tracks.receiveAll {segments : List Bytes}
    (hlen : ∀ segment ∈ segments, segment.length ≤ maxRwCount) :
    ∀ {s : Session} {r : Progress UInt8 KVStore Bytes}, s.Tracks r →
      ∃ s', s'.Tracks (kvFramer.feedAll r segments) ∧ ∀ turns, 2 ^ 31 ≤ turns →
        Kv.receiveAll KVService.default turns s segments = some s' := by
  induction segments with
  | nil =>
      intro s r h
      exact ⟨s, h, fun _ _ => rfl⟩
  | cons segment segments ih =>
      intro s r h
      obtain ⟨s₁, h₁, hreceive⟩ := h.receive (hlen segment (by simp))
      obtain ⟨s₂, h₂, hrest⟩ := ih (fun seg hseg => hlen seg (by simp [hseg])) h₁
      refine ⟨s₂, h₂, ?_⟩
      intro turns hturns
      unfold Kv.receiveAll at hrest ⊢
      rw [List.foldlM_cons, hreceive turns hturns]
      exact hrest turns hturns

/-- **Segmentation does not matter.** -/
theorem segmentation_invisible (kvstore : KVStore) (segments segments' : List Bytes)
    (hflow : segments.flatten = segments'.flatten)
    (hlen : ∀ segment ∈ segments, segment.length ≤ maxRwCount)
    (hlen' : ∀ segment ∈ segments', segment.length ≤ maxRwCount) :
    ∃ s s', (∀ turns, 2 ^ 31 ≤ turns →
        receiveAll KVService.default turns (Session.start kvstore) segments = some s ∧
        receiveAll KVService.default turns (Session.start kvstore) segments' = some s') ∧
      s.handler.calls = s'.handler.calls ∧
      s.handler.kvstore = s'.handler.kvstore ∧
      s.closed = s'.closed ∧
      s.consumed = s'.consumed ∧
      (s.closed = false →
        s.handler.buffer.unread = s'.handler.buffer.unread ∧
        (∃ p : Packet, p.Framed ∧ s.handler.buffer.unread <+: packetBytes p ∧
          s.handler.buffer.unread.length < (packetBytes p).length) ∧
        s.handler.buffer.unread.length < 24 + kMaxBodyLength.toNat) := by
  obtain ⟨s, htracks, hreturns⟩ :=
    Session.Tracks.receiveAll hlen (Session.tracks_start kvstore)
  obtain ⟨s', htracks', hreturns'⟩ :=
    Session.Tracks.receiveAll hlen' (Session.tracks_start kvstore)
  have hsame := kvFramer.feedAll_same_feedAll kvstore hflow
  refine ⟨s, s', fun turns hturns => ⟨hreturns turns hturns, hreturns' turns hturns⟩,
    ?_, ?_, ?_, ?_, ?_⟩
  · rw [htracks.calls, htracks'.calls, progressCalls, progressCalls, hsame.out, hsame.halted]
  · rw [htracks.kvstore, htracks'.kvstore, hsame.state]
  · rw [htracks.closed_eq, htracks'.closed_eq, hsame.halted]
  · rw [htracks.consumed_eq, htracks'.consumed_eq, hsame.consumed]
  · intro hopen
    rw [htracks.closed_eq] at hopen
    have hshort := htracks.short hopen
    rw [htracks.unread, htracks'.unread, ← hsame.pending hopen]
    refine ⟨rfl, exists_frame_of_short hshort, ?_⟩
    rw [kMaxBodyLength_toNat]
    omega

end Verdict

/-- Two `PING`s, in one segment and in two. -/
theorem segmentation_invisible_pings :
    let _ : Host := ⟨false⟩
    let ping := packetBytes (requestPacket kPing [])
    ∃ s s', (∀ turns, 2 ^ 31 ≤ turns →
        receiveAll KVService.default turns (Session.start KVStore.new) [ping ++ ping] = some s ∧
        receiveAll KVService.default turns (Session.start KVStore.new)
          [ping.take 20, ping.drop 20 ++ ping] = some s') ∧
      s.handler.calls = s'.handler.calls := by
  intro _ ping
  obtain ⟨s, s', hreturns, hcalls, _⟩ := segmentation_invisible KVStore.new [ping ++ ping]
    [ping.take 20, ping.drop 20 ++ ping] (by decide) (by decide) (by decide)
  exact ⟨s, s', hreturns, hcalls⟩

end Adachi.Kv
