import Adachi.Kv.RequestCodec

/-!
# The response codec

The grammar of response bodies (`ResponseBody`): a value goes with the status
`kOk` of a `GET`, every other answer has no body.  The encoder and the decoder
of responses agree with it, and so with each other.
-/

namespace Adachi.Kv

open Adachi.Io Memory ByteOrder

/-! ## The grammar of response bodies -/

/-- The answers that carry a value. -/
def CarriesValue (opcode status : UInt16) : Prop := opcode = kGet ∧ status = kOk

instance (opcode status : UInt16) : Decidable (CarriesValue opcode status) :=
  inferInstanceAs (Decidable (opcode = kGet ∧ status = kOk))

/-- `ResponseBody opcode status value body`: `body` is the body of an answer with
this status and value to a request with this opcode. -/
inductive ResponseBody (opcode status : UInt16) : Bytes → Bytes → Prop where
  | value {value : Bytes} : CarriesValue opcode status → ValueAllowed value →
      ResponseBody opcode status value (natBytes 4 value.length ++ value)
  | empty : ¬CarriesValue opcode status → ResponseBody opcode status [] []

theorem value_body_iff {opcode status : UInt16} (h : CarriesValue opcode status)
    {value body : Bytes} :
    ResponseBody opcode status value body ↔
      ValueAllowed value ∧ body = natBytes 4 value.length ++ value := by
  constructor
  · intro hbody
    cases hbody with
    | value _ hvalue => exact ⟨hvalue, rfl⟩
    | empty hnot => exact absurd h hnot
  · rintro ⟨hvalue, rfl⟩
    exact .value h hvalue

theorem empty_body_iff {opcode status : UInt16} (h : ¬CarriesValue opcode status)
    {value body : Bytes} :
    ResponseBody opcode status value body ↔ value = [] ∧ body = [] := by
  constructor
  · intro hbody
    cases hbody with
    | value hcarries _ => exact absurd hcarries h
    | empty _ => exact ⟨rfl, rfl⟩
  · rintro ⟨rfl, rfl⟩
    exact .empty h

theorem ResponseBody.length_le {opcode status : UInt16} {value body : Bytes}
    (h : ResponseBody opcode status value body) : body.length ≤ 2 ^ 21 := by
  cases h with
  | value _ hvalue =>
      unfold ValueAllowed at hvalue
      simp only [List.length_append, natBytes_length]
      omega
  | empty _ => simp

/-! ## Encoding -/

/-- The packet `EncodeKVResponseToPacket` makes of a body. -/
def responsePacket (opcode status : UInt16) (requestId : UInt64) (body : Bytes) :
    Packet where
  head :=
    { magic := kDefaultMagic
      version := kDefaultVersion
      msgType := kResponse
      opcode := opcode
      status := status
      bodyLength := UInt32.ofNat body.length
      requestId := requestId }
  body := body

theorem responsePacket_framed {opcode status : UInt16} {requestId : UInt64}
    {value body : Bytes} (h : ResponseBody opcode status value body) :
    (responsePacket opcode status requestId body).Framed := by
  have hlen := h.length_le
  exact toNat_ofNat_of_lt (by omega)

/-- The value a response puts on the wire. -/
def KVResponse.wireValue (r : KVResponse) (opcode : UInt16) : Bytes :=
  if CarriesValue opcode r.status then r.value else []

theorem exists_responseBody_iff {opcode status : UInt16} {body : Bytes} :
    (∃ value, ResponseBody opcode status value body) ↔
      if CarriesValue opcode status then
        ∃ value : Bytes, value.length ≤ 2 ^ 20 ∧ body = natBytes 4 value.length ++ value
      else body = [] := by
  split
  · rename_i hcarries
    simp only [value_body_iff hcarries, ValueAllowed]
  · rename_i hcarries
    simp only [empty_body_iff hcarries, exists_eq_left]

/-- A body determines the value that is put on the wire. -/
theorem ResponseBody.wire_eq {opcode status : UInt16} {value body : Bytes}
    (h : ResponseBody opcode status value body) (key extrainfo : Bytes) :
    (KVResponse.mk status key value extrainfo).wireValue opcode = value := by
  unfold KVResponse.wireValue
  cases h with
  | value hcarries _ => exact if_pos hcarries
  | empty hnot => exact if_neg hnot

theorem emptyBodyResponse_eq_some_iff (p : Packet) (r : KVResponse) :
    emptyBodyResponse p = some r ↔
      p.body = [] ∧ r = ⟨p.head.status, [], [], []⟩ := by
  rw [emptyBodyResponse, Option.ite_none_right_eq_some, Option.some.injEq,
    eq_comm (a := r)]

section Codec

variable [Host]

/-- **Encoding in closed form.** -/
theorem encodeKVResponseToPacket_eq_some_iff (r : KVResponse) (opcode : UInt16)
    (requestId : UInt64) (p : Packet) :
    encodeKVResponseToPacket r opcode requestId = some p ↔
      ∃ body, ResponseBody opcode r.status (r.wireValue opcode) body ∧
        p = responsePacket opcode r.status requestId body := by
  unfold encodeKVResponseToPacket KVResponse.wireValue
  by_cases hcarries : CarriesValue opcode r.status
  · rw [if_pos hcarries]
    simp only [if_pos (show opcode = kGet ∧ r.status = kOk from hcarries),
      value_body_iff hcarries, appendHostInteger_eq, appendBytes_eq, List.nil_append,
      Option.bind_eq_bind, Option.bind_none, Option.bind_some]
    constructor
    · intro h
      split at h
      · cases h
      rename_i hcheck
      obtain ⟨hlen, rfl⟩ := maxBody_guard.1 h
      simp only [List.length_append] at hlen
      rw [valueLength_check, toNat_ofNat_of_lt (by omega)] at hcheck
      rw [beBytes_ofNat (by omega)]
      exact ⟨_, ⟨hcheck, rfl⟩, rfl⟩
    · rintro ⟨body, ⟨hvalue, rfl⟩, rfl⟩
      have hlen := (ResponseBody.value hcarries hvalue).length_le
      unfold ValueAllowed at hvalue
      rw [if_neg, beBytes_ofNat (by omega)]
      · exact maxBody_guard.2 ⟨hlen, rfl⟩
      · rw [valueLength_check, toNat_ofNat_of_lt (by omega)]
        exact hvalue
  · rw [if_neg hcarries]
    simp only [if_neg (show ¬(opcode = kGet ∧ r.status = kOk) from hcarries),
      empty_body_iff hcarries, Option.bind_eq_bind, Option.bind_some, maxBody_guard]
    constructor
    · rintro ⟨_, rfl⟩
      exact ⟨[], ⟨trivial, rfl⟩, rfl⟩
    · rintro ⟨body, ⟨_, rfl⟩, rfl⟩
      exact ⟨Nat.zero_le _, rfl⟩

/-! ## Decoding -/

/-- The reads the decoder makes on a body with a value. -/
theorem value_body_iff_reads {opcode status : UInt16} (h : CarriesValue opcode status)
    {value body : Bytes} :
    ResponseBody opcode status value body ↔
      ∃ valueLength o₁,
        readBodyInteger UInt32 body 0 = some (valueLength, o₁) ∧
        ¬valueLength > kMaxValueLength ∧
        readBodyString body o₁ valueLength = some (value, body.length) := by
  rw [value_body_iff h]
  constructor
  · rintro ⟨hvalue, rfl⟩
    unfold ValueAllowed at hvalue
    have hv : value.length < 2 ^ 32 := by omega
    have h₁ := readBodyInteger_append [] value hv
    have h₂ := readBodyString_append (natBytes 4 value.length) [] hv
    simp only [List.nil_append, List.append_nil, List.length_nil] at h₁ h₂
    refine ⟨_, _, h₁, ?_, h₂⟩
    rw [valueLength_check, toNat_ofNat_of_lt hv]
    exact hvalue
  · rintro ⟨valueLength, o₁, h₁, hcheck, h₂⟩
    rw [valueLength_check] at hcheck
    obtain ⟨ht₁, _, _⟩ := readBodyInteger_sound h₁
    obtain ⟨ht₂, hvalue, _⟩ := readBodyString_sound h₂
    rw [List.take_length, ht₁, List.take_zero, List.nil_append, ← hvalue] at ht₂
    unfold ValueAllowed
    exact ⟨hvalue ▸ hcheck, ht₂⟩

/-- Without a value, every branch of the decoder asks for an empty body. -/
theorem decodePacketToKVResponse_of_not_carries {p : Packet}
    (h : ¬CarriesValue p.head.opcode p.head.status) :
    decodePacketToKVResponse p = emptyBodyResponse p := by
  unfold decodePacketToKVResponse
  split
  · rfl
  · split
    · rename_i hget
      rw [if_pos fun hok => h ⟨hget, hok⟩]
    · rfl

/-- **Decoding in closed form.** -/
theorem decodePacketToKVResponse_eq_some_iff (p : Packet) (r : KVResponse) :
    decodePacketToKVResponse p = some r ↔
      ResponseBody p.head.opcode p.head.status r.value p.body ∧
        r.status = p.head.status ∧ r.key = [] ∧ r.extrainfo = [] := by
  obtain ⟨status, key, value, extrainfo⟩ := r
  by_cases hcarries : CarriesValue p.head.opcode p.head.status
  · rw [value_body_iff_reads hcarries]
    obtain ⟨hget, hok⟩ := hcarries
    unfold decodePacketToKVResponse
    rw [if_neg (by rw [hget]; decide), if_pos hget, if_neg (not_not.2 hok)]
    simp only [Option.bind_eq_bind, Option.bind_none, Option.ite_none_left_eq_some,
      Option.ite_none_right_eq_some, Option.bind_eq_some_iff, Prod.exists,
      Option.some.injEq, KVResponse.mk.injEq]
    constructor
    · rintro ⟨_, _, h₁, hcheck, _, _, h₂, rfl, rfl, rfl, rfl, rfl⟩
      exact ⟨⟨_, _, h₁, hcheck, h₂⟩, rfl, rfl, rfl⟩
    · rintro ⟨⟨_, _, h₁, hcheck, h₂⟩, rfl, rfl, rfl⟩
      exact ⟨_, _, h₁, hcheck, _, _, h₂, rfl, rfl, rfl, rfl, rfl⟩
  · rw [decodePacketToKVResponse_of_not_carries hcarries, empty_body_iff hcarries,
      emptyBodyResponse_eq_some_iff, KVResponse.mk.injEq]
    tauto

/-! ## Both directions together -/

theorem encodeKVResponseToPacket_eq_none_iff (r : KVResponse) (opcode : UInt16)
    (requestId : UInt64) :
    encodeKVResponseToPacket r opcode requestId = none ↔
      opcode = kGet ∧ r.status = kOk ∧ 2 ^ 20 < r.value.length := by
  rw [Option.eq_none_iff_forall_ne_some]
  by_cases hcarries : CarriesValue opcode r.status
  · simp only [ne_eq, encodeKVResponseToPacket_eq_some_iff, value_body_iff hcarries,
      KVResponse.wireValue, if_pos hcarries]
    constructor
    · intro h
      refine ⟨hcarries.1, hcarries.2, ?_⟩
      by_contra hlen
      exact h _ ⟨_, ⟨Nat.not_lt.1 hlen, rfl⟩, rfl⟩
    · rintro ⟨_, _, hlen⟩ p ⟨_, ⟨hvalue, _⟩, _⟩
      exact absurd hlen (Nat.not_lt.2 hvalue)
  · simp only [ne_eq, encodeKVResponseToPacket_eq_some_iff, empty_body_iff hcarries,
      KVResponse.wireValue, if_neg hcarries]
    constructor
    · intro h
      exact absurd ⟨[], ⟨trivial, rfl⟩, rfl⟩ (h _)
    · rintro ⟨hget, hok, _⟩
      exact absurd ⟨hget, hok⟩ hcarries

/-- **The response codec is exact**: which responses are encoded, what comes
back of them, which packets are decoded, and that decoding loses nothing. -/
theorem responseCodec_exact :
    (∀ (r : KVResponse) (opcode : UInt16) (requestId : UInt64),
      encodeKVResponseToPacket r opcode requestId = none ↔
        opcode = kGet ∧ r.status = kOk ∧ 2 ^ 20 < r.value.length) ∧
    (∀ (r : KVResponse) (opcode : UInt16) (requestId : UInt64) (p : Packet),
      encodeKVResponseToPacket r opcode requestId = some p →
        p.head.bodyLength.toNat = p.body.length ∧ p.head.msgType = kResponse ∧
        p.head.opcode = opcode ∧ p.head.requestId = requestId ∧
        decodePacketToKVResponse p =
          some { status := r.status
                 key := []
                 value := if opcode = kGet ∧ r.status = kOk then r.value else []
                 extrainfo := [] }) ∧
    (∀ p : Packet, p.head.magic = kDefaultMagic → p.head.version = kDefaultVersion →
      p.head.msgType = kResponse → p.head.bodyLength.toNat = p.body.length →
        ((decodePacketToKVResponse p).isSome ↔
          if p.head.opcode = kGet ∧ p.head.status = kOk then
            ∃ value : Bytes, value.length ≤ 2 ^ 20 ∧
              p.body = natBytes 4 value.length ++ value
          else p.body = []) ∧
        ∀ r, decodePacketToKVResponse p = some r →
          encodeKVResponseToPacket r p.head.opcode p.head.requestId = some p) := by
  refine ⟨encodeKVResponseToPacket_eq_none_iff, ?_, ?_⟩
  · intro r opcode requestId p h
    obtain ⟨body, hbody, rfl⟩ :=
      (encodeKVResponseToPacket_eq_some_iff r opcode requestId p).1 h
    refine ⟨responsePacket_framed hbody, rfl, rfl, rfl, ?_⟩
    exact (decodePacketToKVResponse_eq_some_iff _ _).2 ⟨hbody, rfl, rfl, rfl⟩
  · intro p hmagic hversion htype hframed
    constructor
    · rw [Option.isSome_iff_exists]
      refine Iff.trans ?_ exists_responseBody_iff
      constructor
      · rintro ⟨r, hr⟩
        exact ⟨r.value, ((decodePacketToKVResponse_eq_some_iff p r).1 hr).1⟩
      · rintro ⟨value, hvalue⟩
        exact ⟨⟨p.head.status, [], value, []⟩,
          (decodePacketToKVResponse_eq_some_iff p _).2 ⟨hvalue, rfl, rfl, rfl⟩⟩
    · intro r hr
      obtain ⟨status, key, value, extrainfo⟩ := r
      obtain ⟨hbody, rfl, rfl, rfl⟩ := (decodePacketToKVResponse_eq_some_iff p _).1 hr
      rw [encodeKVResponseToPacket_eq_some_iff, hbody.wire_eq]
      refine ⟨p.body, hbody, ?_⟩
      obtain ⟨⟨magic, version, msgType, opcode, status, bodyLength, requestId⟩, body⟩ := p
      simp only at hmagic hversion htype hframed
      subst hmagic hversion htype
      rw [responsePacket, ← hframed, UInt32.ofNat_toNat]

end Codec

/-- The answer `b` to a `GET`, there and back. -/
theorem responseCodec_exact_get :
    let _ : Host := ⟨false⟩
    let answer : KVResponse := ⟨kOk, [], [98], []⟩
    let p := responsePacket kGet kOk 7 [0, 0, 0, 1, 98]
    encodeKVResponseToPacket answer kGet 7 = some p ∧
      decodePacketToKVResponse p = some answer ∧
      encodeKVResponseToPacket answer p.head.opcode p.head.requestId = some p := by
  intro _ answer p
  have hencode : encodeKVResponseToPacket answer kGet 7 = some p := by decide
  have hdecode := (responseCodec_exact.2.1 answer kGet 7 p hencode).2.2.2.2
  exact ⟨hencode, hdecode,
    (responseCodec_exact.2.2 p rfl rfl rfl (by decide)).2 answer hdecode⟩

end Adachi.Kv
