import Adachi.Io.BufferQueue
import Adachi.Kv.KvService
import Adachi.Kv.RequestCodec

/-!
# How the default callbacks recognise a frame

Each of the three callbacks decodes the head with `DecodeFlowToPacket` and
tells it that only the 24 bytes of the head are there.  But that function also
asks for the body the head announces, so it fails on every head with a
`body_length` other than zero: the checks below recognise the frames without a
body and no others.

## Main results

* `kDefaultHeadCheck_iff`, `kDefaultShouldGet_iff`, `kDefaultBodyCheck_spec`:
  what each callback does, on the unread bytes.
* `frameRecognized_iff`: frames are recognised as the protocol asks exactly when
  the head breaks a rule anyway or announces no body.
-/

namespace Adachi.Kv

open Adachi.Io Memory ByteOrder

/-! ## The head of the unread bytes -/

/-- The rules of the protocol a head can break. -/
def PacketHead.Broken (head : PacketHead) : Prop :=
  head.magic ≠ kDefaultMagic ∨ head.version ≠ kDefaultVersion ∨
    head.msgType ≠ kRequest ∨ head.bodyLength > kMaxBodyLength

instance (head : PacketHead) : Decidable head.Broken := by
  unfold PacketHead.Broken
  infer_instance

/-- The codec does not make heads that break a rule. -/
theorem requestPacket_not_broken {opcode : UInt16} {key value body : Bytes}
    (h : RequestBody opcode key value body) :
    ¬(requestPacket opcode body).head.Broken := by
  have hlen : _ = body.length := requestPacket_framed h
  intro hbroken
  rcases hbroken with hmagic | hversion | htype | hmax
  · exact hmagic rfl
  · exact hversion rfl
  · exact htype rfl
  · refine (bodyLength_check _).2 ?_ hmax
    rw [hlen]
    exact h.length_le

/-- The head is made of the first 24 bytes. -/
theorem headAt_take (src : Bytes) {n : Nat} (h : 24 ≤ n) :
    headAt (src.take n) = headAt src := by
  have hslice : ∀ off len, off + len ≤ 24 →
      slice (src.take n) off len = slice src off len := by
    intro off len hlen
    rw [slice, List.drop_take, List.take_take, Nat.min_eq_left (by omega)]
    rfl
  unfold headAt
  rw [hslice 0 4 (by decide), hslice 4 2 (by decide), hslice 6 2 (by decide),
    hslice 8 2 (by decide), hslice 10 2 (by decide), hslice 12 4 (by decide),
    hslice 16 8 (by decide)]

/-- The head of the frame at the front of a buffer. -/
theorem headAt_frame {b : Buffer} {p : Packet} {t : Bytes}
    (hunread : b.unread = packetBytes p ++ t) :
    24 ≤ b.unread.length ∧ headAt b.unread = p.head := by
  rw [hunread]
  constructor
  · rw [List.length_append, packetBytes_length]
    omega
  · rw [packetBytes, List.append_assoc, headAt_headBytes]

theorem Packet.Framed.bodyLength_eq_zero_iff {p : Packet} (h : p.Framed) :
    p.head.bodyLength = 0 ↔ p.body = [] := by
  rw [← UInt32.toNat_inj, show p.head.bodyLength.toNat = p.body.length from h,
    UInt32.toNat_zero, List.length_eq_zero_iff]

section Checks

variable [Host] {b : Buffer}

omit [Host] in
theorem not_size_lt_head (h : b.WF) (h24 : 24 ≤ b.unread.length) :
    ¬b.size < sizeofPacketHead := by
  rw [Buffer.size_eq h]
  exact Nat.not_lt.2 h24

/-- What `DecodeFlowToPacket` makes of the head alone. -/
theorem decodeHead_eq (h : b.WF) (h24 : 24 ≤ b.unread.length) :
    decodeFlowToPacket b.cReadData sizeofPacketHead =
      if (headAt b.unread).bodyLength = 0 then some ⟨headAt b.unread, []⟩ else none := by
  have hlen := Buffer.length_cReadData h
  have hhead : headAt b.cReadData = headAt b.unread := by
    rw [← Buffer.cReadData_take h, headAt_take _ h24]
  rw [sizeofPacketHead, decodeFlowToPacket_eq (by omega), hhead]
  by_cases hzero : (headAt b.unread).bodyLength = 0
  · rw [if_pos hzero, hzero, if_pos (by decide), UInt32.toNat_zero, slice_zero]
  · have hpos : (headAt b.unread).bodyLength.toNat ≠ 0 := by
      rwa [Ne, ← UInt32.toNat_zero, UInt32.toNat_inj]
    rw [if_neg hzero, if_neg (by omega)]

/-! ## The three checks -/

/-- `HeadCheck` rejects the heads that break a rule, and all that announce a
body. -/
theorem kDefaultHeadCheck_iff (h : b.WF) (h24 : 24 ≤ b.unread.length) :
    kDefaultHeadCheck b = true ↔
      (headAt b.unread).Broken ∨ (headAt b.unread).bodyLength ≠ 0 := by
  unfold kDefaultHeadCheck PacketHead.Broken
  rw [if_neg (not_size_lt_head h h24), decodeHead_eq h h24]
  by_cases hzero : (headAt b.unread).bodyLength = 0
  · rw [if_pos hzero]
    simp [hzero, or_assoc]
  · rw [if_neg hzero]
    simp [hzero]

theorem kDefaultShouldGet_iff (h : b.WF) (h24 : 24 ≤ b.unread.length) :
    kDefaultShouldGet b = true ↔ (headAt b.unread).bodyLength = 0 := by
  unfold kDefaultShouldGet
  rw [if_neg (not_size_lt_head h h24), decodeHead_eq h h24]
  by_cases hzero : (headAt b.unread).bodyLength = 0
  · rw [if_pos hzero]
    simpa [hzero, Buffer.size_eq h, sizeofPacketHead] using h24
  · rw [if_neg hzero]
    simp [hzero]

/-- The packet `BodyCheck` hands over: its verdict stands in the status. -/
def checkedPacket (p : Packet) : Packet :=
  if !isSupportedOpcode p.head.opcode then
    { p with head := { p.head with status := kUnsupportedOpcode } }
  else if decodePacketToKVRequest p = none then
    { p with head := { p.head with status := kBadRequest } }
  else p

theorem checkedPacket_body (p : Packet) : (checkedPacket p).body = p.body := by
  unfold checkedPacket
  split
  · rfl
  · split <;> rfl

/-- `BodyCheck` changes no field of the head but the status. -/
theorem checkedPacket_head (p : Packet) (status : UInt16) :
    { (checkedPacket p).head with status := status } =
      { p.head with status := status } := by
  unfold checkedPacket
  split
  · rfl
  · split <;> rfl

/-- `BodyCheck` takes a frame without body from the buffer. -/
theorem kDefaultBodyCheck_spec (h : b.WF) (h24 : 24 ≤ b.unread.length)
    (hzero : (headAt b.unread).bodyLength = 0) :
    ∃ b', kDefaultBodyCheck b = (some (checkedPacket ⟨headAt b.unread, []⟩), b') ∧
      b'.WF ∧ b'.unread = b.unread.drop 24 ∧ b'.buffer = b.buffer := by
  obtain ⟨b', hread, hwf, hunread, hbuffer⟩ := Buffer.readBufferLen_spec h h24
  refine ⟨b', ?_, hwf, hunread, hbuffer⟩
  have hraw : decodeFlowToPacketView (b.unread.take 24) = some ⟨headAt b.unread, []⟩ := by
    rw [decodeFlowToPacketView, decodeFlowToPacket_eq (Nat.le_refl _),
      headAt_take _ (Nat.le_refl _), hzero]
    simp [h24]
  unfold kDefaultBodyCheck
  rw [if_neg (not_size_lt_head h h24), decodeHead_eq h h24, if_pos hzero]
  simp only [hzero, UInt32.toNat_zero, Nat.add_zero]
  rw [if_neg (not_size_lt_head h h24), show sizeofPacketHead = 24 from rfl, hread]
  simp only [hraw]
  unfold checkedPacket
  split
  · rfl
  · split <;> rfl

/-- `BodyCheck` fails on a frame with a body. -/
theorem kDefaultBodyCheck_eq_none (h : b.WF) (h24 : 24 ≤ b.unread.length)
    (hbody : (headAt b.unread).bodyLength ≠ 0) : kDefaultBodyCheck b = (none, b) := by
  unfold kDefaultBodyCheck
  rw [if_neg (not_size_lt_head h h24), decodeHead_eq h h24, if_neg hbody]

/-! ## What the protocol asks of the three together -/

/-- `BodyCheck` consumes the first frame and stores what stands on the wire, the
status aside. -/
def FrameTaken (b : Buffer) : Prop :=
  ∃ p b', KVService.default.bodyCheck b = (some p, b') ∧
    b'.unread = b.unread.drop (24 + (headAt b.unread).bodyLength.toNat) ∧
    { p.head with status := (headAt b.unread).status } = headAt b.unread ∧
    p.body = slice b.unread 24 (headAt b.unread).bodyLength.toNat

/-- `HeadCheck` rejects exactly the broken heads; behind it `ShouldGet` waits for
exactly the whole frame, which `BodyCheck` then takes. -/
def FrameRecognized (b : Buffer) : Prop :=
  (KVService.default.headCheck b = true ↔ (headAt b.unread).Broken) ∧
    (KVService.default.headCheck b = false →
      (KVService.default.shouldGet b = true ↔
        24 + (headAt b.unread).bodyLength.toNat ≤ b.unread.length) ∧
      (24 + (headAt b.unread).bodyLength.toNat ≤ b.unread.length → FrameTaken b))

/-- The first frame passes all three checks. -/
def FrameHandedOver (b : Buffer) : Prop :=
  KVService.default.headCheck b = false ∧ KVService.default.shouldGet b = true ∧
    FrameTaken b

theorem frameTaken_of_no_body (h : b.WF) (h24 : 24 ≤ b.unread.length)
    (hzero : (headAt b.unread).bodyLength = 0) : FrameTaken b := by
  obtain ⟨b', hcheck, _, hunread, _⟩ := kDefaultBodyCheck_spec h h24 hzero
  refine ⟨_, b', hcheck, ?_, checkedPacket_head _ _, ?_⟩
  · rw [hunread, hzero, UInt32.toNat_zero]
  · rw [checkedPacket_body, hzero, UInt32.toNat_zero, slice_zero]

theorem frameRecognized_of_no_body (h : b.WF) (h24 : 24 ≤ b.unread.length)
    (hzero : (headAt b.unread).bodyLength = 0) : FrameRecognized b := by
  constructor
  · refine (kDefaultHeadCheck_iff h h24).trans ?_
    simp [hzero]
  · intro _
    constructor
    · refine (kDefaultShouldGet_iff h h24).trans ?_
      simpa [hzero] using h24
    · intro _
      exact frameTaken_of_no_body h h24 hzero

/-- **Which frames are recognised.**  The three callbacks do what the protocol
asks exactly on the heads that break a rule or announce no body; so of the
requests the codec makes, exactly `PING` reaches the service. -/
theorem frameRecognized_iff :
    (∀ b : Buffer, b.WF → 24 ≤ b.unread.length →
      (FrameRecognized b ↔
        (headAt b.unread).Broken ∨ (headAt b.unread).bodyLength = 0)) ∧
    (∀ (r : KVRequest) (p : Packet) (flow t : Bytes) (b : Buffer),
      encodeKVRequestToPacket r = some p → encodePacketToFlow p [] = some flow →
      b.WF → b.unread = flow ++ t →
        (FrameHandedOver b ↔ r.opcode = kPing)) := by
  constructor
  · intro b h h24
    constructor
    · rintro ⟨hhead, _⟩
      by_cases hzero : (headAt b.unread).bodyLength = 0
      · exact .inr hzero
      · exact .inl (hhead.1 ((kDefaultHeadCheck_iff h h24).2 (.inr hzero)))
    · intro hcase
      rcases hcase with hbroken | hzero
      · have htrue := (kDefaultHeadCheck_iff h h24).2 (.inl hbroken)
        exact ⟨iff_of_true htrue hbroken, fun hfalse => nomatch htrue.symm.trans hfalse⟩
      · exact frameRecognized_of_no_body h h24 hzero
  · intro r p flow t b hencode hflow h hunread
    obtain ⟨body, hbody, rfl⟩ := (encodeKVRequestToPacket_eq_some_iff r p).1 hencode
    rw [encodePacketToFlow_eq] at hflow
    obtain rfl := Option.some.inj hflow
    obtain ⟨h24, hhead⟩ := headAt_frame hunread
    have hzero : (headAt b.unread).bodyLength = 0 ↔ r.opcode = kPing := by
      rw [hhead, (requestPacket_framed hbody).bodyLength_eq_zero_iff]
      exact hbody.eq_nil_iff
    rw [← hzero]
    constructor
    · rintro ⟨_, hget, _⟩
      exact (kDefaultShouldGet_iff h h24).1 hget
    · intro hbodyless
      refine ⟨?_, (kDefaultShouldGet_iff h h24).2 hbodyless,
        frameTaken_of_no_body h h24 hbodyless⟩
      rw [← Bool.not_eq_true]
      intro hreject
      rcases (kDefaultHeadCheck_iff h h24).1 hreject with hbroken | hsome
      · exact requestPacket_not_broken hbody (hhead ▸ hbroken)
      · exact hsome hbodyless

end Checks

/-- A `GET` of the key `a`: the head breaks no rule and yet is rejected. -/
theorem frameRecognized_get :
    let _ : Host := ⟨false⟩
    let b : Buffer := ⟨[6, 22, 16, 39, 0, 1, 0, 1, 0, 3, 0, 0, 0, 0, 0, 5, 0, 0, 0, 0,
      0, 0, 0, 0, 0, 0, 0, 1, 97], 0, 29⟩
    b.WF ∧ 24 ≤ b.unread.length ∧ ¬FrameRecognized b := by
  intro _ b
  refine ⟨⟨by decide, by decide, by decide, by decide⟩, by decide, ?_⟩
  rintro ⟨hhead, _⟩
  have hreject : KVService.default.headCheck b = true := by decide
  have hrules : ¬(headAt b.unread).Broken := by decide
  exact hrules (hhead.1 hreject)

/-- A `PING` passes, with bytes of another frame behind it. -/
theorem frameRecognized_iff_ping :
    let _ : Host := ⟨false⟩
    let b : Buffer := ⟨[6, 22, 16, 39, 0, 1, 0, 1, 0, 1, 0, 0, 0, 0, 0, 0, 0, 0, 0, 0,
      0, 0, 0, 0, 6, 22], 0, 26⟩
    FrameRecognized b ∧ FrameHandedOver b := by
  intro _ b
  have hwf : b.WF := ⟨by decide, by decide, by decide, by decide⟩
  have hrecognized := (frameRecognized_iff.1 b hwf (by decide)).2 (.inr (by decide))
  have hhanded := frameRecognized_iff.2 ⟨kPing, [], [], []⟩ (requestPacket kPing [])
    (packetBytes (requestPacket kPing [])) [6, 22] b (by decide) (by decide) hwf (by decide)
  exact ⟨hrecognized, hhanded.2 rfl⟩

end Adachi.Kv
