import Adachi.Io.FramedReads

/-!
# The default on-message handler of `adachi::network::TcpConnection`

Frames of a four-byte big-endian length and as many bytes, each answered by the frame of
its payload with `" OK!"` behind (`src/tcpconnection.cpp`).

`Parsed` says what the frames of a stream are, without the handler: as many as there are
complete ones at the front, and what remains does not start with another.  There is one
such parse of a stream (`Parsed.unique`).

## Main results

* `onmessage_replies`: whatever the segmentation, every run of the handler returns, and its
  calls are the replies to the frames of the stream, in order, with `Close` at the end
  exactly if a length above the limit follows the frames.
-/

namespace Adachi.Network

open Adachi.Io ByteOrder Framer WhileLoop

/-! ## The handler -/

/-- What the handler calls on its connection, or that an exception leaves it. -/
inductive HandlerCall where
  | write (message : Bytes)
  | close
  | threw
  deriving DecidableEq, Repr

/-- What the handler works on. -/
structure MessageHandler where
  buffer : Buffer
  calls : List HandlerCall

def MessageHandler.call (h : MessageHandler) (c : HandlerCall) : MessageHandler :=
  { h with calls := h.calls ++ [c] }

/-- The longest payload that is accepted. -/
def kMaxMessageLength : Nat := 100000

/-- The largest window that TCP can announce (65535 with the largest scale, 14): so many
bytes are queued for one `readv` at most. -/
def maxTcpWindow : Nat := 65535 * 2 ^ 14

section Handler

variable [Host]

def ntohl (n : UInt32) : UInt32 := if Host.bigEndian then n else bswap n

def htonl (n : UInt32) : UInt32 := if Host.bigEndian then n else bswap n

/-- One turn of the `while` loop of `onmessage_`. -/
def onmessageTurn (h : MessageHandler) : MessageHandler ⊕ MessageHandler :=
  if h.buffer.size ≥ WireInt.size UInt32 then
    match h.buffer.peekUnsignedInt with
    | none => .inr (h.call .threw)
    | some v =>
        let len := ntohl v
        if len.toNat > kMaxMessageLength then .inr (h.call .close)
        else if h.buffer.size ≥ len.toNat + WireInt.size UInt32 then
          match h.buffer.readBufferLen (WireInt.size UInt32) with
          | none => .inr (h.call .threw)
          | some (_, buffer) =>
              match buffer.readBufferLen len.toNat with
              | none => .inr (h.call .threw)
              | some (message, buffer) =>
                  let message := message ++ ascii " OK!"
                  let v := htonl (UInt32.ofNat message.length)
                  .inl (MessageHandler.call { h with buffer := buffer }
                    (.write (hostBytes v ++ message)))
        else .inr h
  else .inr h

/-- The handler; `none` when it has not returned after `turns` turns. -/
def onmessage (turns : Nat) (h : MessageHandler) : Option MessageHandler :=
  iterate onmessageTurn turns h

/-- A new connection with a read buffer of this size. -/
def MessageHandler.start (readBufferSize : Nat) : MessageHandler :=
  ⟨Buffer.new readBufferSize, []⟩

/-- A segment is appended to the read buffer and the handler runs, unless `Close` has been
called. -/
def MessageHandler.receive (turns : Nat) (h : MessageHandler) (segment : Bytes) :
    Option MessageHandler :=
  if h.calls.contains .close then some h
  else onmessage turns { h with buffer := (h.buffer.readFd (.ok segment)).2 }

/-- Segments arrive one after the other. -/
def MessageHandler.receiveAll (turns : Nat) (h : MessageHandler) (segments : List Bytes) :
    Option MessageHandler :=
  segments.foldlM (receive turns) h

end Handler

/-! ## Frames -/

/-- The frame of a payload -/
def frame (payload : Bytes) : Bytes := beBytes (UInt32.ofNat payload.length) ++ payload

/-- The frame that answers a payload -/
def reply (payload : Bytes) : Bytes := frame (payload ++ ascii " OK!")

/-- The length at the head of some bytes -/
def headLength (bs : Bytes) : Nat := bytesNat (bs.take 4)

/-- A length above the limit is at the head. -/
def TooLong (bs : Bytes) : Prop := 4 ≤ bs.length ∧ kMaxMessageLength < headLength bs

instance (bs : Bytes) : Decidable (TooLong bs) := inferInstanceAs (Decidable (_ ∧ _))

/-- A frame that has begun and is not complete: part of a length, or an accepted length with
part of the payload. -/
def Incomplete (bs : Bytes) : Prop :=
  bs.length < 4 ∨ (headLength bs ≤ kMaxMessageLength ∧ bs.length < 4 + headLength bs)

/-- The frames at the front of a stream, as many as there are, and what remains. -/
structure Parsed (stream : Bytes) (payloads : List Bytes) (rest : Bytes) : Prop where
  split : stream = payloads.flatMap frame ++ rest
  accepted : ∀ p ∈ payloads, p.length ≤ kMaxMessageLength
  maximal : ∀ p : Bytes, p.length ≤ kMaxMessageLength → ¬ frame p <+: rest

/-! ### What the head of a frame says -/

theorem length_frame (p : Bytes) : (frame p).length = 4 + p.length := by
  unfold frame
  rw [List.length_append, beBytes_length, size_uint32]

theorem headLength_append {xs : Bytes} (h : 4 ≤ xs.length) (ys : Bytes) :
    headLength (xs ++ ys) = headLength xs := by
  unfold headLength
  rw [List.take_append_of_le_length h]

theorem headLength_frame {p : Bytes} (h : p.length < 2 ^ 32) (ys : Bytes) :
    headLength (frame p ++ ys) = p.length := by
  have hhead : (beBytes (UInt32.ofNat p.length)).length = 4 := beBytes_length _
  unfold headLength frame
  rw [List.append_assoc, ← hhead, List.take_left]
  show bytesNat (natBytes 4 (UInt32.ofNat p.length).toNat) = p.length
  rw [UInt32.toNat_ofNat', Nat.mod_eq_of_lt h]
  exact bytesNat_natBytes h

/-- The bytes that a complete frame takes up. -/
theorem frame_slice {xs : Bytes} (h : 4 + headLength xs ≤ xs.length) :
    frame ((xs.drop 4).take (headLength xs)) = xs.take (4 + headLength xs) := by
  have htake : (xs.take 4).length = 4 := by
    rw [List.length_take]
    omega
  have hlength : ((xs.drop 4).take (headLength xs)).length = headLength xs := by
    rw [List.length_take, List.length_drop]
    omega
  have hhead : beBytes (UInt32.ofNat (headLength xs)) = xs.take 4 := beBytes_ofBeBytes htake
  unfold frame
  rw [hlength, hhead, List.take_add]

theorem lt_of_accepted {n : Nat} (h : n ≤ kMaxMessageLength) : n < 2 ^ 32 := by
  unfold kMaxMessageLength at h
  omega

/-- What starts with a frame has its length at the head, and is long enough. -/
theorem of_frame_head {p xs : Bytes} (hp : p.length ≤ kMaxMessageLength)
    (h : frame p <+: xs) : headLength xs = p.length ∧ 4 + p.length ≤ xs.length := by
  rcases h with ⟨ys, rfl⟩
  refine ⟨headLength_frame (lt_of_accepted hp) ys, ?_⟩
  rw [List.length_append, length_frame]
  omega

theorem TooLong.no_frame {xs p : Bytes} (h : TooLong xs) (hp : p.length ≤ kMaxMessageLength) :
    ¬ frame p <+: xs := by
  intro hfront
  have hhead := (of_frame_head hp hfront).1
  have hlong := h.2
  omega

theorem Incomplete.no_frame {xs p : Bytes} (h : Incomplete xs)
    (hp : p.length ≤ kMaxMessageLength) : ¬ frame p <+: xs := by
  intro hfront
  have hhead := of_frame_head hp hfront
  rcases h with h | h
  · omega
  · omega

theorem Incomplete.length_lt {xs : Bytes} (h : Incomplete xs) :
    xs.length < 4 + kMaxMessageLength := by
  rcases h with h | h
  · omega
  · omega

/-- A stream has one parse. -/
theorem Parsed.unique {stream rest rest' : Bytes} {payloads payloads' : List Bytes}
    (h : Parsed stream payloads rest) (h' : Parsed stream payloads' rest') :
    payloads = payloads' ∧ rest = rest' := by
  induction payloads generalizing stream payloads' with
  | nil =>
      cases payloads' with
      | nil => exact ⟨rfl, h.split.symm.trans h'.split⟩
      | cons p payloads' =>
          have hsplit := h.split.symm.trans h'.split
          rw [List.flatMap_cons, List.append_assoc] at hsplit
          exact absurd ⟨_, hsplit.symm⟩ (h.maximal p (h'.accepted p List.mem_cons_self))
  | cons p payloads ih =>
      have hp := h.accepted p List.mem_cons_self
      have hsplit := h.split
      rw [List.flatMap_cons, List.append_assoc] at hsplit
      cases payloads' with
      | nil => exact absurd ⟨_, hsplit.symm.trans h'.split⟩ (h'.maximal p hp)
      | cons p' payloads' =>
          have hp' := h'.accepted p' List.mem_cons_self
          have hsplit' := h'.split
          rw [List.flatMap_cons, List.append_assoc] at hsplit'
          have hlength : p.length = p'.length := by
            rw [← headLength_frame (lt_of_accepted hp), ← hsplit, hsplit',
              headLength_frame (lt_of_accepted hp')]
          have heq := List.append_inj (hsplit.symm.trans hsplit')
            (by rw [length_frame, length_frame, hlength])
          have hpayload : p = p' := (List.append_inj' heq.1 hlength).2
          have hrest : Parsed (payloads.flatMap frame ++ rest) payloads rest :=
            ⟨rfl, fun q hq => h.accepted q (List.mem_cons_of_mem _ hq), h.maximal⟩
          have hrest' : Parsed (payloads.flatMap frame ++ rest) payloads' rest' :=
            ⟨heq.2, fun q hq => h'.accepted q (List.mem_cons_of_mem _ hq), h'.maximal⟩
          rcases ih hrest hrest' with ⟨hpayloads, hrests⟩
          exact ⟨by rw [hpayload, hpayloads], hrests⟩

/-! ## The framer -/

/-- What the handler does with the bytes at the front of the buffer. -/
def messageVerdict (xs : Bytes) : Verdict Unit Bytes :=
  if xs.length < 4 then .wait
  else if kMaxMessageLength < headLength xs then .halt
  else if xs.length < 4 + headLength xs then .wait
  else .consume (4 + headLength xs) () [reply ((xs.drop 4).take (headLength xs))]

theorem messageVerdict_wait_iff (xs : Bytes) :
    messageVerdict xs = .wait ↔ Incomplete xs := by
  unfold messageVerdict Incomplete
  split
  · simp [*]
  · split
    · simp
      omega
    · split
      · simp
        omega
      · simp
        omega

theorem messageVerdict_halt_iff (xs : Bytes) : messageVerdict xs = .halt ↔ TooLong xs := by
  unfold messageVerdict TooLong
  split
  · simp
    omega
  · split
    · simp
      omega
    · split
      · simp
        omega
      · simp
        omega

theorem messageVerdict_of_complete {xs : Bytes} (hopen : ¬ Incomplete xs) (hshort : ¬ TooLong xs) :
    messageVerdict xs =
      .consume (4 + headLength xs) () [reply ((xs.drop 4).take (headLength xs))] := by
  unfold Incomplete at hopen
  unfold TooLong at hshort
  unfold messageVerdict
  rw [if_neg (by omega), if_neg (by omega), if_neg (by omega)]

theorem Incomplete.of_append {xs ys : Bytes} (h : Incomplete (xs ++ ys)) : Incomplete xs := by
  by_cases hlen : xs.length < 4
  · exact .inl hlen
  · unfold Incomplete at h ⊢
    rw [headLength_append (by omega), List.length_append] at h
    omega

theorem tooLong_append {xs : Bytes} (h : 4 ≤ xs.length) (ys : Bytes) :
    TooLong (xs ++ ys) ↔ TooLong xs := by
  unfold TooLong
  rw [headLength_append h, List.length_append]
  omega

/-- Frames as an incremental reader. -/
def messageFramer : Framer UInt8 Unit Bytes where
  verdict _ xs := messageVerdict xs
  verdict_nil _ := (messageVerdict_wait_iff []).2 (.inl (by decide))
  consume_pos := by
    intro _ xs n _ out h
    by_cases hopen : Incomplete xs
    · rw [(messageVerdict_wait_iff xs).2 hopen] at h
      cases h
    · by_cases hlong : TooLong xs
      · rw [(messageVerdict_halt_iff xs).2 hlong] at h
        cases h
      · rw [messageVerdict_of_complete hopen hlong] at h
        cases h
        unfold Incomplete at hopen
        unfold TooLong at hlong
        omega
  verdict_append := by
    intro _ xs ys h
    rw [Ne, messageVerdict_wait_iff] at h
    have hlen : 4 ≤ xs.length := by
      unfold Incomplete at h
      omega
    by_cases hlong : TooLong xs
    · rw [(messageVerdict_halt_iff xs).2 hlong,
        (messageVerdict_halt_iff _).2 ((tooLong_append hlen ys).2 hlong)]
    · have hfit : headLength xs ≤ (xs.drop 4).length := by
        unfold Incomplete at h
        unfold TooLong at hlong
        rw [List.length_drop]
        omega
      rw [messageVerdict_of_complete h hlong,
        messageVerdict_of_complete (fun hopen => h hopen.of_append)
          (fun hlong' => hlong ((tooLong_append hlen ys).1 hlong')),
        headLength_append hlen, List.drop_append_of_le_length hlen,
        List.take_append_of_le_length hfit]

/-- **Draining parses.**  What is read are the frames at the front, and what is pending is the
rest. -/
theorem drain_parsed (xs : Bytes) :
    ∃ payloads, Parsed xs payloads (messageFramer.drain () xs).pending ∧
      (messageFramer.drain () xs).out = payloads.map reply ∧
      ((messageFramer.drain () xs).halted = true ↔
        TooLong (messageFramer.drain () xs).pending) := by
  refine messageFramer.drain_induction (P := fun _ xs r =>
    ∃ payloads, Parsed xs payloads r.pending ∧ r.out = payloads.map reply ∧
      (r.halted = true ↔ TooLong r.pending)) ?_ ?_ ?_ () xs
  · intro _ xs hwait
    have hopen := (messageVerdict_wait_iff xs).1 hwait
    refine ⟨[], ⟨rfl, nofun, fun p => hopen.no_frame⟩, rfl, ?_⟩
    rw [← messageVerdict_halt_iff]
    show false = true ↔ messageVerdict xs = .halt
    rw [show messageVerdict xs = .wait from hwait]
    simp
  · intro _ xs hhalt
    have hlong := (messageVerdict_halt_iff xs).1 hhalt
    exact ⟨[], ⟨rfl, nofun, fun p => hlong.no_frame⟩, rfl, iff_of_true rfl hlong⟩
  · intro _ xs n _ out hconsume ih
    rcases ih with ⟨payloads, hparsed, hout, hhalted⟩
    have hopen : ¬ Incomplete xs := by
      rw [← messageVerdict_wait_iff, show messageVerdict xs = _ from hconsume]
      exact nofun
    have hlong : ¬ TooLong xs := by
      rw [← messageVerdict_halt_iff, show messageVerdict xs = _ from hconsume]
      exact nofun
    have hverdict := (messageVerdict_of_complete hopen hlong).symm.trans hconsume
    obtain ⟨rfl, _, rfl⟩ := Verdict.consume.inj hverdict
    unfold Incomplete at hopen
    unfold TooLong at hlong
    refine ⟨(xs.drop 4).take (headLength xs) :: payloads, ⟨?_, ?_, hparsed.maximal⟩, ?_, hhalted⟩
    · rw [List.flatMap_cons, List.append_assoc, frame_slice (by omega)]
      show xs = _ ++ (payloads.flatMap frame ++ (messageFramer.drain () _).pending)
      rw [← hparsed.split, List.take_append_drop]
    · intro p hp
      rcases List.mem_cons.1 hp with rfl | hp
      · rw [List.length_take]
        omega
      · exact hparsed.accepted p hp
    · show _ :: _ = _
      rw [List.map_cons, ← hout]
      rfl

/-! ## One turn of the loop -/

section Turn

variable [Host] {h : MessageHandler}

/-- The length that the handler reads is the one at the head. -/
theorem ntohl_hostLoad {xs : Bytes} (hlen : 4 ≤ xs.length) :
    (ntohl (hostLoad (xs.take 4))).toNat = headLength xs := by
  have htake : (xs.take 4).length = WireInt.size UInt32 := by
    rw [List.length_take, size_uint32]
    omega
  have hlt := bytesNat_lt (xs.take 4)
  unfold ntohl
  rw [load_eq_bswap htake]
  show (UInt32.ofNat (bytesNat (xs.take 4))).toNat = _
  rw [htake, size_uint32] at hlt
  rw [UInt32.toNat_ofNat']
  exact Nat.mod_eq_of_lt hlt

theorem onmessageTurn_wait (hfits : h.buffer.Fits) (hopen : Incomplete h.buffer.unread) :
    onmessageTurn h = .inr h := by
  unfold onmessageTurn
  rw [Buffer.size_eq hfits.toWF, size_uint32]
  by_cases hlen : h.buffer.unread.length ≥ 4
  · have hshort : headLength h.buffer.unread ≤ kMaxMessageLength ∧
        h.buffer.unread.length < 4 + headLength h.buffer.unread :=
      hopen.resolve_left (by omega)
    rw [if_pos hlen, Buffer.peekUnsignedInt_spec hfits.toWF hlen]
    dsimp only
    rw [ntohl_hostLoad hlen, if_neg (by omega), if_neg (by omega)]
  · rw [if_neg hlen]

theorem onmessageTurn_halt (hfits : h.buffer.Fits) (hlong : TooLong h.buffer.unread) :
    onmessageTurn h = .inr (h.call .close) := by
  unfold onmessageTurn
  rw [Buffer.size_eq hfits.toWF, size_uint32, if_pos hlong.1,
    Buffer.peekUnsignedInt_spec hfits.toWF hlong.1]
  dsimp only
  rw [ntohl_hostLoad hlong.1, if_pos hlong.2]

theorem onmessageTurn_consume (hfits : h.buffer.Fits) (hopen : ¬ Incomplete h.buffer.unread)
    (hlong : ¬ TooLong h.buffer.unread) :
    ∃ b', onmessageTurn h = .inl ⟨b', h.calls ++ [.write (reply
        ((h.buffer.unread.drop 4).take (headLength h.buffer.unread)))]⟩ ∧
      b'.Fits ∧ b'.unread = h.buffer.unread.drop (4 + headLength h.buffer.unread) := by
  unfold Incomplete at hopen
  unfold TooLong at hlong
  have hlen : 4 ≤ h.buffer.unread.length := by omega
  obtain ⟨b, hheader, hwf, hunread, hbuffer⟩ := Buffer.readBufferLen_spec hfits.toWF hlen
  have hpayload : headLength h.buffer.unread ≤ b.unread.length := by
    rw [hunread, List.length_drop]
    omega
  obtain ⟨b', hmessage, hwf', hunread', hbuffer'⟩ := Buffer.readBufferLen_spec hwf hpayload
  refine ⟨b', ?_, ⟨hwf', ?_⟩, ?_⟩
  · unfold onmessageTurn
    rw [Buffer.size_eq hfits.toWF, size_uint32, if_pos hlen,
      Buffer.peekUnsignedInt_spec hfits.toWF hlen]
    dsimp only
    rw [ntohl_hostLoad hlen, if_neg (by omega), if_pos (by omega), hheader]
    dsimp only
    rw [hmessage, hunread]
    dsimp only
    unfold htonl
    rw [store_bswap]
    rfl
  · rw [hbuffer', hbuffer]
    exact hfits.capacity_lt
  · rw [hunread', hunread, List.drop_drop]

/-- What the handler works on. -/
def MessageHandler.reading (h : MessageHandler) : Reading Unit HandlerCall :=
  ⟨h.buffer, (), h.calls⟩

/-- A turn of the loop reads frames as the framer does. -/
theorem onmessageTurn_reads :
    Reads messageFramer HandlerCall.write HandlerCall.close onmessageTurn
      MessageHandler.reading where
  wait h hfits hverdict := onmessageTurn_wait hfits ((messageVerdict_wait_iff _).1 hverdict)
  halt h hfits hverdict :=
    ⟨h.call .close, onmessageTurn_halt hfits ((messageVerdict_halt_iff _).1 hverdict), rfl⟩
  consume h n _ out hfits hverdict := by
    have hopen : ¬ Incomplete h.buffer.unread := by
      rw [← messageVerdict_wait_iff, show messageVerdict h.buffer.unread = _ from hverdict]
      exact nofun
    have hlong : ¬ TooLong h.buffer.unread := by
      rw [← messageVerdict_halt_iff, show messageVerdict h.buffer.unread = _ from hverdict]
      exact nofun
    obtain ⟨b', hagain, hfits', hunread⟩ := onmessageTurn_consume hfits hopen hlong
    obtain ⟨rfl, _, rfl⟩ :=
      Verdict.consume.inj ((messageVerdict_of_complete hopen hlong).symm.trans hverdict)
    exact ⟨_, b', hagain, rfl, hfits', hunread⟩

/-! ## Segment by segment -/

/-- The handler stands where the framer stands. -/
structure MessageHandler.Reached (h : MessageHandler) (p : Progress UInt8 Unit Bytes) :
    Prop where
  tracks : Tracks HandlerCall.write HandlerCall.close h.reading p
  short : p.halted = false → Incomplete p.pending

omit [Host] in
theorem MessageHandler.Reached.closed_eq {p : Progress UInt8 Unit Bytes} (h' : h.Reached p) :
    h.calls.contains .close = p.halted := by
  rw [show h.calls = _ from h'.tracks.calls, callsOf]
  cases p.halted with
  | true => simp
  | false => simp

omit [Host] in
theorem MessageHandler.reached_start {readBufferSize : Nat} (hsize : readBufferSize < 2 ^ 31) :
    (start readBufferSize).Reached (Progress.start ()) where
  tracks := tracks_start (r := (start readBufferSize).reading) (Buffer.new_fits hsize)
    (Buffer.unread_new _) rfl
  short _ := .inl (Nat.zero_lt_succ 3)

/-- **Step lemma**: a segment arrives. -/
theorem MessageHandler.Reached.receive {p : Progress UInt8 Unit Bytes} (h' : h.Reached p)
    {segment : Bytes} (hlen : segment.length ≤ maxTcpWindow) :
    ∃ h₁ : MessageHandler, h₁.Reached (messageFramer.feed p segment) ∧
      ∀ turns, 2 ^ 31 ≤ turns → h.receive turns segment = some h₁ := by
  cases hhalted : p.halted with
  | true =>
      refine ⟨h, ?_, ?_⟩
      · rw [messageFramer.feed_halted hhalted]
        exact h'
      · intro turns _
        rw [MessageHandler.receive, h'.closed_eq, hhalted, if_pos rfl]
  | false =>
      have hshort := (h'.short hhalted).length_lt
      have hroom : p.pending.length + segment.length < 2 ^ 31 := by
        unfold kMaxMessageLength at hshort
        unfold maxTcpWindow at hlen
        omega
      let h₀ : MessageHandler := { h with buffer := (h.buffer.readFd (.ok segment)).2 }
      obtain ⟨h₁, hfed, hreturns⟩ :=
        onmessageTurn_reads.fed h'.tracks hhalted hroom (show h₀.reading = _ from rfl)
      refine ⟨h₁, ⟨hfed, ?_⟩, ?_⟩
      · intro hopen
        exact (messageVerdict_wait_iff _).1 (messageFramer.feed_waits hhalted hopen)
      · intro turns hturns
        rw [MessageHandler.receive, h'.closed_eq, hhalted, if_neg Bool.false_ne_true]
        exact hreturns turns hturns

/-- **Run lemma**: segments arrive one after the other. -/
theorem MessageHandler.Reached.receiveAll {segments : List Bytes}
    (hlen : ∀ segment ∈ segments, segment.length ≤ maxTcpWindow)
    {p : Progress UInt8 Unit Bytes} (h' : h.Reached p) :
    ∃ h₁ : MessageHandler, h₁.Reached (messageFramer.feedAll p segments) ∧
      ∀ turns, 2 ^ 31 ≤ turns → h.receiveAll turns segments = some h₁ := by
  induction segments generalizing h p with
  | nil => exact ⟨h, h', fun _ _ => rfl⟩
  | cons segment segments ih =>
      obtain ⟨h₁, h₁', hreceive⟩ := h'.receive (hlen segment List.mem_cons_self)
      obtain ⟨h₂, h₂', hrest⟩ := ih (fun seg hseg => hlen seg (List.mem_cons_of_mem _ hseg)) h₁'
      refine ⟨h₂, h₂', ?_⟩
      intro turns hturns
      unfold MessageHandler.receiveAll at hrest ⊢
      rw [List.foldlM_cons, hreceive turns hturns]
      exact hrest turns hturns

/-- **Every frame is answered once.**  For every stream, however it is cut into segments
that a read can take: every run of the handler returns; the stream has one parse into frames
and a rest; the calls are the replies to these frames in order, followed by `Close` exactly
when a length above the limit is at the head of the rest; and if not, the bytes left unread
are the rest, a frame that is not complete. -/
theorem onmessage_replies {readBufferSize : Nat} (hsize : readBufferSize < 2 ^ 31)
    (segments : List Bytes) (hlen : ∀ segment ∈ segments, segment.length ≤ maxTcpWindow) :
    ∃ (h : MessageHandler) (payloads : List Bytes) (rest : Bytes),
      (∀ turns, 2 ^ 31 ≤ turns →
        (MessageHandler.start readBufferSize).receiveAll turns segments = some h) ∧
      Parsed segments.flatten payloads rest ∧
      (∀ payloads' rest', Parsed segments.flatten payloads' rest' →
        payloads' = payloads ∧ rest' = rest) ∧
      h.calls = payloads.map (fun p => .write (reply p)) ++
        (if TooLong rest then [.close] else []) ∧
      (¬ TooLong rest →
        h.buffer.unread = rest ∧ Incomplete rest ∧ rest.length < 100004) := by
  obtain ⟨h, hreached, hreturns⟩ :=
    MessageHandler.Reached.receiveAll hlen (MessageHandler.reached_start hsize)
  obtain ⟨payloads, hparsed, hout, hhalted⟩ := drain_parsed segments.flatten
  have hsame := messageFramer.feedAll_same_drain () segments
  refine ⟨h, payloads, _, hreturns, hparsed, ?_, ?_, ?_⟩
  · exact fun payloads' rest' hparsed' => hparsed'.unique hparsed
  · rw [show h.calls = _ from hreached.tracks.calls, callsOf, hsame.out, hsame.halted, hout,
      List.map_map]
    congr 1
    simp only [hhalted]
  · intro hlong
    rw [← hhalted, Bool.not_eq_true] at hlong
    rw [← hsame.halted] at hlong
    have hshort := hreached.short hlong
    rw [← hsame.pending hlong]
    exact ⟨hreached.tracks.unread, hshort, hshort.length_lt⟩

end Turn

/-- An empty payload and one of two bytes, cut inside a length and inside a payload, and then a
length above the limit. -/
theorem onmessage_replies_cut :
    let _ : Host := ⟨false⟩
    ∃ h : MessageHandler, (∀ turns, 2 ^ 31 ≤ turns →
        (MessageHandler.start 1024).receiveAll turns
          [[0, 0], [0, 0, 0, 0, 0, 2, 7], [8, 0xff, 0, 0, 0]] = some h) ∧
      h.calls = [.write (reply []), .write (reply [7, 8]), .close] := by
  intro _
  obtain ⟨h, payloads, rest, hreturns, hparsed, hunique, hcalls, _⟩ :=
    onmessage_replies (show 1024 < 2 ^ 31 by decide)
      [[0, 0], [0, 0, 0, 0, 0, 2, 7], [8, 0xff, 0, 0, 0]] (by decide)
  have hlong : TooLong [0xff, 0, 0, 0] := by decide
  have hparse : Parsed [0, 0, 0, 0, 0, 0, 0, 2, 7, 8, 0xff, 0, 0, 0] [[], [7, 8]]
      [0xff, 0, 0, 0] := ⟨by decide, by decide, fun p => hlong.no_frame⟩
  obtain ⟨rfl, rfl⟩ := hunique _ _ hparse
  rw [if_pos hlong] at hcalls
  exact ⟨h, hreturns, hcalls⟩

end Adachi.Network
