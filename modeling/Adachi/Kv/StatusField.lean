import Adachi.Kv.EchoSpec
import Adachi.Kv.FrameChecks

/-!
# The status field of a request

`BodyCheck` reports its verdict to `ShouldEcho` in the status of the packet, but
leaves there what the client sent when it has no objection.  `ShouldEcho` then
takes the client's status for a verdict: it skips the request and echoes the
status.

## Main results

* `echo_error`: a packet that comes with an error is not executed.
* `statusField_iff`: which frames are answered as the protocol asks, whatever
  their status.
-/

namespace Adachi.Kv

open Adachi.Io Memory ByteOrder

/-- The same packet with another status. -/
def Packet.withStatus (p : Packet) (status : UInt16) : Packet :=
  { p with head := { p.head with status := status } }

section Status

variable [Host]

/-- `BodyCheck`, then `ShouldEcho` if it returned `true`, as in the server. -/
def answerFrame (kvstore : KVStore) (buffer : Buffer) : Option Packet × KVStore :=
  match KVService.default.bodyCheck buffer with
  | (none, _) => (none, kvstore)
  | (some result, buffer) => KVService.default.shouldEcho kvstore buffer result

/-- The law: either the frame with the other status is refused as a bad request
and not executed, or the status makes no difference. -/
def StatusLaw (kvstore : KVStore) (plain other : Buffer) : Prop :=
  (∃ q, answerFrame kvstore other = (some q, kvstore) ∧ q.head.status = kBadRequest) ∨
    answerFrame kvstore other = answerFrame kvstore plain

/-- `ShouldEcho` skips a packet that comes with an error. -/
theorem echo_error {p : Packet} (h : p.head.status ≠ kOk) (kvstore : KVStore) :
    echoObject.apply kvstore p =
      (some (replyPacket p p.head.status []), kvstore) := by
  unfold SharedObject.apply
  rw [show echoObject.prepare p = KVService.echoRequest p from rfl]
  unfold KVService.echoRequest
  dsimp only
  rw [if_neg h]
  exact Prod.ext (echoReply_eq p (Nat.zero_le _)) rfl

theorem echo_ping {p : Packet} (hok : p.head.status = kOk) (hping : p.head.opcode = kPing)
    (hdecode : decodePacketToKVRequest p ≠ none) (kvstore : KVStore) :
    echoObject.apply kvstore p = (some (replyPacket p kOk []), kvstore) := by
  obtain ⟨request, hrequest⟩ := Option.ne_none_iff_exists'.1 hdecode
  obtain ⟨_, _, _, hopcode, _⟩ := (decodePacketToKVRequest_eq_some_iff p _).1 hrequest
  unfold SharedObject.apply
  rw [show echoObject.prepare p = KVService.echoRequest p from rfl]
  unfold KVService.echoRequest
  dsimp only
  rw [if_pos hok, hrequest]
  dsimp only
  rw [if_pos (hopcode.trans hping)]
  exact Prod.ext (echoReply_eq p (Nat.zero_le _)) rfl

/-- A packet `BodyCheck` objects to loses its status. -/
theorem checkedPacket_refused {p : Packet}
    (h : isSupportedOpcode p.head.opcode = false ∨ decodePacketToKVRequest p = none)
    (status : UInt16) : checkedPacket (p.withStatus status) = checkedPacket p := by
  have hdecode : decodePacketToKVRequest (p.withStatus status) =
      decodePacketToKVRequest p := rfl
  unfold checkedPacket
  rw [hdecode, show (p.withStatus status).head.opcode = p.head.opcode from rfl]
  cases hsupported : isSupportedOpcode p.head.opcode with
  | false => rfl
  | true =>
      have hnone := h.resolve_left (by simp [hsupported])
      rw [if_pos hnone, if_pos hnone]
      rfl

/-- A packet `BodyCheck` has no objection to keeps its status. -/
theorem checkedPacket_accepted {p : Packet} (hdecode : decodePacketToKVRequest p ≠ none) :
    checkedPacket p = p := by
  obtain ⟨request, hrequest⟩ := Option.ne_none_iff_exists'.1 hdecode
  obtain ⟨_, _, hbody, _, _⟩ := (decodePacketToKVRequest_eq_some_iff p _).1 hrequest
  have hsupported : isSupportedOpcode p.head.opcode = true := by
    rcases hbody.opcode_cases with h | h | h | h <;> rw [h] <;> decide
  unfold checkedPacket
  rw [hsupported, if_neg hdecode]
  rfl

/-- Without a body only `PING` is a request. -/
theorem decode_no_body_iff {p : Packet} (htype : p.head.msgType = kRequest)
    (hframed : p.Framed) (hbody : p.body = []) :
    decodePacketToKVRequest p ≠ none ↔ p.head.opcode = kPing := by
  rw [← Option.isSome_iff_ne_none, decodePacketToKVRequest_isSome_iff]
  constructor
  · rintro ⟨_, _, _, key, value, hgrammar⟩
    exact hgrammar.eq_nil_iff.1 hbody
  · intro hping
    refine ⟨htype, hframed, ?_, [], [], ?_⟩
    · rw [show p.head.bodyLength.toNat = p.body.length from hframed, hbody]
      exact Nat.zero_le _
    · rw [hping, hbody]
      exact .ping

/-- What a frame without a body is answered. -/
theorem answerFrame_no_body {b : Buffer} (h : b.WF) {p : Packet} {t : Bytes}
    (hunread : b.unread = packetBytes p ++ t) (hframed : p.Framed) (hbody : p.body = [])
    (kvstore : KVStore) :
    answerFrame kvstore b = echoObject.apply kvstore (checkedPacket p) := by
  obtain ⟨h24, hhead⟩ := headAt_frame hunread
  have hzero : (headAt b.unread).bodyLength = 0 :=
    hhead ▸ hframed.bodyLength_eq_zero_iff.2 hbody
  obtain ⟨b', hcheck, _⟩ := kDefaultBodyCheck_spec h h24 hzero
  have hp : (⟨headAt b.unread, []⟩ : Packet) = p := by rw [hhead, ← hbody]
  unfold answerFrame
  rw [show KVService.default.bodyCheck b = _ from hcheck, hp]
  exact shouldEcho_eq ..

/-- A frame with a body is not answered. -/
theorem answerFrame_body {b : Buffer} (h : b.WF) {p : Packet} {t : Bytes}
    (hunread : b.unread = packetBytes p ++ t) (hframed : p.Framed) (hbody : p.body ≠ [])
    (kvstore : KVStore) : answerFrame kvstore b = (none, kvstore) := by
  obtain ⟨h24, hhead⟩ := headAt_frame hunread
  have hsome : (headAt b.unread).bodyLength ≠ 0 :=
    hhead ▸ fun hzero => hbody (hframed.bodyLength_eq_zero_iff.1 hzero)
  unfold answerFrame
  rw [show KVService.default.bodyCheck b = _ from kDefaultBodyCheck_eq_none h h24 hsome]

/-- **Which frames the status makes no difference to.**  Of two frames that break
no rule of the head and differ in the status only, one of them with `kOk`, the
law holds exactly unless they are `PING`s and the other status is not
`kBadRequest`.  And every request that `BodyCheck` lets through with another status
is skipped and answered with that status. -/
theorem statusField_iff :
    (∀ (kvstore : KVStore) (p : Packet) (status : UInt16) (t t' : Bytes)
      (plain other : Buffer), ¬p.head.Broken → p.Framed → p.head.status = kOk →
      status ≠ kOk → plain.WF → plain.unread = packetBytes p ++ t →
      other.WF → other.unread = packetBytes (p.withStatus status) ++ t' →
        (StatusLaw kvstore plain other ↔
          p.head.opcode ≠ kPing ∨ p.body ≠ [] ∨ status = kBadRequest)) ∧
    (∀ (kvstore : KVStore) (p : Packet) (status : UInt16) (buffer : Buffer),
      decodePacketToKVRequest p ≠ none → status ≠ kOk →
        KVService.default.shouldEcho kvstore buffer (checkedPacket (p.withStatus status)) =
          (some (replyPacket p status []), kvstore)) := by
  constructor
  · intro kvstore p status t t' plain other hrules hframed hok hstatus hplain hplainBytes
      hother hotherBytes
    have hframed' : (p.withStatus status).Framed := hframed
    by_cases hbody : p.body = []
    swap
    · have hsame : StatusLaw kvstore plain other := by
        refine .inr ?_
        rw [answerFrame_body hother hotherBytes hframed' hbody,
          answerFrame_body hplain hplainBytes hframed hbody]
      exact iff_of_true hsame (.inr (.inl hbody))
    have htype : p.head.msgType = kRequest := by
      by_contra htype
      exact hrules (.inr (.inr (.inl htype)))
    unfold StatusLaw
    rw [answerFrame_no_body hother hotherBytes hframed' hbody,
      answerFrame_no_body hplain hplainBytes hframed hbody]
    by_cases hping : p.head.opcode = kPing
    swap
    · have hnone : decodePacketToKVRequest p = none := by
        by_contra hdecode
        exact hping ((decode_no_body_iff htype hframed hbody).1 hdecode)
      rw [checkedPacket_refused (.inr hnone)]
      exact iff_of_true (.inr rfl) (.inl hping)
    have hdecode := (decode_no_body_iff htype hframed hbody).2 hping
    rw [checkedPacket_accepted hdecode,
      checkedPacket_accepted (p := p.withStatus status) hdecode, echo_ping hok hping hdecode,
      echo_error (p := p.withStatus status) hstatus]
    constructor
    · intro hlaw
      rcases hlaw with ⟨q, hq, hbad⟩ | hsame
      · obtain rfl := Option.some.inj (Prod.mk.inj hq).1
        exact .inr (.inr hbad)
      · have hpackets := Option.some.inj (Prod.mk.inj hsame).1
        exact absurd (congrArg (·.head.status) hpackets) hstatus
    · intro hallowed
      rcases hallowed with hne | hne | rfl
      · exact absurd hping hne
      · exact absurd hbody hne
      · exact .inl ⟨_, rfl, rfl⟩
  · intro kvstore p status buffer hdecode hstatus
    rw [checkedPacket_accepted (p := p.withStatus status) hdecode, shouldEcho_eq]
    exact echo_error (p := p.withStatus status) hstatus kvstore

end Status

/-- A `PING` with status 1 is answered with status 1. -/
theorem statusField_ping :
    let _ : Host := ⟨false⟩
    let ping := requestPacket kPing []
    let plain : Buffer := ⟨packetBytes ping, 0, 24⟩
    let other : Buffer := ⟨packetBytes (ping.withStatus kNotFound), 0, 24⟩
    ¬ping.head.Broken ∧ ping.Framed ∧ plain.WF ∧ other.WF ∧
      plain.unread = packetBytes ping ∧
      other.unread = packetBytes (ping.withStatus kNotFound) ∧
      ¬StatusLaw KVStore.new plain other := by
  intro _ ping plain other
  have hplain : (answerFrame KVStore.new plain).1 = some (replyPacket ping kOk []) := by
    decide
  have hother : (answerFrame KVStore.new other).1 = some (replyPacket ping kNotFound []) := by
    decide
  refine ⟨by decide, by decide, ⟨by decide, by decide, by decide, by decide⟩,
    ⟨by decide, by decide, by decide, by decide⟩, by decide, by decide, ?_⟩
  intro hlaw
  rcases hlaw with ⟨q, hq, hbad⟩ | hsame
  · rw [hq] at hother
    obtain rfl := Option.some.inj hother
    revert hbad
    decide
  · rw [hsame, hplain] at hother
    revert hother
    decide

/-- The law on a `PING` with the one status it allows, and a `PUT` that is not
executed. -/
theorem statusField_iff_ping :
    let _ : Host := ⟨false⟩
    let ping := requestPacket kPing []
    let put := requestPacket kPut [0, 0, 0, 1, 0, 0, 0, 1, 97, 98]
    let plain : Buffer := ⟨packetBytes ping, 0, 24⟩
    let other : Buffer := ⟨packetBytes (ping.withStatus kBadRequest), 0, 24⟩
    StatusLaw KVStore.new plain other ∧
      KVService.default.shouldEcho KVStore.new plain (checkedPacket (put.withStatus kNotFound)) =
        (some (replyPacket put kNotFound []), KVStore.new) := by
  intro _ ping put plain other
  have hlaw := statusField_iff.1 KVStore.new ping kBadRequest [] [] plain other (by decide)
    (by decide) (by decide) (by decide) ⟨by decide, by decide, by decide, by decide⟩
    (by decide) ⟨by decide, by decide, by decide, by decide⟩ (by decide)
  exact ⟨hlaw.2 (.inr (.inr rfl)),
    statusField_iff.2 KVStore.new put kNotFound plain (by decide) (by decide)⟩

end Adachi.Kv
