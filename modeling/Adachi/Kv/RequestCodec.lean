import Adachi.Kv.PacketFlow

/-!
# The request codec

The grammar of request bodies (`RequestBody`), and the proof that
`EncodeKVRequestToPacket` produces exactly the bodies of the grammar and that
`DecodePacketToKVRequest` accepts exactly these.

The encoder casts the lengths to `uint32_t` before it compares them with the
limits.  A length of `2 ^ 32` or more can pass that comparison, but then the
body it builds is longer than `kMaxBodyLength` and the last check refuses it.
-/

namespace Adachi.Kv

open Adachi.Io Memory ByteOrder

/-! ## The grammar of request bodies -/

/-- The key lengths the protocol allows. -/
def KeyAllowed (key : Bytes) : Prop := 1 ≤ key.length ∧ key.length ≤ 256

/-- The value lengths the protocol allows. -/
def ValueAllowed (value : Bytes) : Prop := value.length ≤ 2 ^ 20

instance (key : Bytes) : Decidable (KeyAllowed key) := by
  unfold KeyAllowed
  infer_instance

instance (value : Bytes) : Decidable (ValueAllowed value) := by
  unfold ValueAllowed
  infer_instance

/-- `RequestBody opcode key value body`: `body` is the body of a request with
this opcode, key and value. -/
inductive RequestBody : UInt16 → Bytes → Bytes → Bytes → Prop where
  | ping : RequestBody kPing [] [] []
  | put {key value : Bytes} : KeyAllowed key → ValueAllowed value →
      RequestBody kPut key value
        (natBytes 4 key.length ++ natBytes 4 value.length ++ key ++ value)
  | get {key : Bytes} : KeyAllowed key →
      RequestBody kGet key [] (natBytes 4 key.length ++ key)
  | del {key : Bytes} : KeyAllowed key →
      RequestBody kDel key [] (natBytes 4 key.length ++ key)

/-- The key a request puts on the wire: none for `PING`. -/
def KVRequest.wireKey (r : KVRequest) : Bytes := if r.opcode = kPing then [] else r.key

/-- The value a request puts on the wire: none but for `PUT`. -/
def KVRequest.wireValue (r : KVRequest) : Bytes := if r.opcode = kPut then r.value else []

/-- The requests within the limits of the protocol. -/
def KVRequest.Encodable (r : KVRequest) : Prop :=
  r.opcode = kPing ∨
    (r.opcode = kPut ∧ KeyAllowed r.key ∧ ValueAllowed r.value) ∨
    ((r.opcode = kGet ∨ r.opcode = kDel) ∧ KeyAllowed r.key)

theorem ping_body_iff {key value body : Bytes} :
    RequestBody kPing key value body ↔ key = [] ∧ value = [] ∧ body = [] := by
  constructor
  · intro h
    cases h with
    | ping => exact ⟨rfl, rfl, rfl⟩
  · rintro ⟨rfl, rfl, rfl⟩
    exact .ping

theorem put_body_iff {key value body : Bytes} :
    RequestBody kPut key value body ↔
      KeyAllowed key ∧ ValueAllowed value ∧
        body = natBytes 4 key.length ++ natBytes 4 value.length ++ key ++ value := by
  constructor
  · intro h
    cases h with
    | put hk hv => exact ⟨hk, hv, rfl⟩
  · rintro ⟨hk, hv, rfl⟩
    exact .put hk hv

/-- `GET` and `DEL` have the same body. -/
theorem get_del_body_iff {opcode : UInt16} (h : opcode = kGet ∨ opcode = kDel)
    {key value body : Bytes} :
    RequestBody opcode key value body ↔
      KeyAllowed key ∧ value = [] ∧ body = natBytes 4 key.length ++ key := by
  rcases h with rfl | rfl
  · constructor
    · intro h
      cases h with
      | get hk => exact ⟨hk, rfl, rfl⟩
    · rintro ⟨hk, rfl, rfl⟩
      exact .get hk
  · constructor
    · intro h
      cases h with
      | del hk => exact ⟨hk, rfl, rfl⟩
    · rintro ⟨hk, rfl, rfl⟩
      exact .del hk

/-- The grammar knows four opcodes. -/
theorem RequestBody.opcode_cases {opcode : UInt16} {key value body : Bytes}
    (h : RequestBody opcode key value body) :
    opcode = kPing ∨ opcode = kPut ∨ opcode = kGet ∨ opcode = kDel := by
  cases h <;> simp

theorem not_requestBody {opcode : UInt16} (hping : opcode ≠ kPing) (hput : opcode ≠ kPut)
    (hkey : ¬(opcode = kGet ∨ opcode = kDel)) {key value body : Bytes} :
    ¬RequestBody opcode key value body := by
  intro h
  rcases h.opcode_cases with hop | hop | hop | hop
  · exact hping hop
  · exact hput hop
  · exact hkey (.inl hop)
  · exact hkey (.inr hop)

theorem RequestBody.length_le {opcode : UInt16} {key value body : Bytes}
    (h : RequestBody opcode key value body) : body.length ≤ 2 ^ 21 := by
  cases h with
  | ping => simp
  | put hk hv =>
      obtain ⟨_, hk⟩ := hk
      unfold ValueAllowed at hv
      simp only [List.length_append, natBytes_length]
      omega
  | get hk =>
      obtain ⟨_, hk⟩ := hk
      simp only [List.length_append, natBytes_length]
      omega
  | del hk =>
      obtain ⟨_, hk⟩ := hk
      simp only [List.length_append, natBytes_length]
      omega

theorem RequestBody.value_allowed {opcode : UInt16} {key value body : Bytes}
    (h : RequestBody opcode key value body) : ValueAllowed value := by
  cases h with
  | ping => exact Nat.zero_le _
  | put _ hv => exact hv
  | get _ => exact Nat.zero_le _
  | del _ => exact Nat.zero_le _

/-- A body of the grammar determines the request. -/
theorem RequestBody.wire_eq {opcode : UInt16} {key value body : Bytes}
    (h : RequestBody opcode key value body) (extrainfo : Bytes) :
    (KVRequest.mk opcode key value extrainfo).wireKey = key ∧
      (KVRequest.mk opcode key value extrainfo).wireValue = value := by
  unfold KVRequest.wireKey KVRequest.wireValue
  cases h <;> simp [opcodes_ne]

/-- A request has no body exactly when it is a `PING`. -/
theorem RequestBody.eq_nil_iff {opcode : UInt16} {key value body : Bytes}
    (h : RequestBody opcode key value body) : body = [] ↔ opcode = kPing := by
  cases h <;> simp [opcodes_ne, natBytes]

theorem exists_requestBody_iff (r : KVRequest) :
    (∃ body, RequestBody r.opcode r.wireKey r.wireValue body) ↔ r.Encodable := by
  obtain ⟨opcode, key, value, extrainfo⟩ := r
  constructor
  · rintro ⟨body, hbody⟩
    simp only [KVRequest.wireKey, KVRequest.wireValue, KVRequest.Encodable] at hbody ⊢
    generalize hk : (if opcode = kPing then [] else key) = k at hbody
    generalize hv : (if opcode = kPut then value else []) = v at hbody
    cases hbody with
    | ping => exact .inl rfl
    | put hkey hvalue =>
        simp only [opcodes_ne, if_false, if_true] at hk hv
        exact .inr (.inl ⟨rfl, hk ▸ hkey, hv ▸ hvalue⟩)
    | get hkey =>
        simp only [opcodes_ne, if_false] at hk
        exact .inr (.inr ⟨.inl rfl, hk ▸ hkey⟩)
    | del hkey =>
        simp only [opcodes_ne, if_false] at hk
        exact .inr (.inr ⟨.inr rfl, hk ▸ hkey⟩)
  · intro hencodable
    rcases hencodable with rfl | ⟨rfl, hk, hv⟩ | ⟨rfl | rfl, hk⟩
    · exact ⟨_, .ping⟩
    · exact ⟨_, .put hk hv⟩
    · exact ⟨_, .get hk⟩
    · exact ⟨_, .del hk⟩

/-! ## 32-bit lengths -/

theorem toNat_ofNat_of_lt {n : Nat} (h : n < 2 ^ 32) : (UInt32.ofNat n).toNat = n := by
  rw [UInt32.toNat_ofNat', Nat.mod_eq_of_lt h]

theorem beBytes_ofNat {n : Nat} (h : n < 2 ^ 32) :
    beBytes (UInt32.ofNat n) = natBytes 4 n := by
  change natBytes 4 (UInt32.ofNat n).toNat = _
  rw [toNat_ofNat_of_lt h]

/-- The key check of the codec, on the cast length. -/
theorem keyLength_check (keyLength : UInt32) :
    ¬(keyLength = 0 ∨ keyLength > kMaxKeyLength) ↔
      1 ≤ keyLength.toNat ∧ keyLength.toNat ≤ 256 := by
  rw [gt_iff_lt, UInt32.lt_iff_toNat_lt, kMaxKeyLength_toNat, ← UInt32.toNat_inj]
  simp only [UInt32.toNat_zero]
  omega

/-- The value check of the codec, on the cast length. -/
theorem valueLength_check (valueLength : UInt32) :
    ¬valueLength > kMaxValueLength ↔ valueLength.toNat ≤ 2 ^ 20 := by
  rw [gt_iff_lt, UInt32.lt_iff_toNat_lt, kMaxValueLength_toNat]
  omega

theorem bodyLength_check (bodyLength : UInt32) :
    ¬bodyLength > kMaxBodyLength ↔ bodyLength.toNat ≤ 2 ^ 21 := by
  rw [gt_iff_lt, UInt32.lt_iff_toNat_lt, kMaxBodyLength_toNat]
  omega

/-! ## Building a body -/

theorem appendBytes_eq (dst src : Bytes) : appendBytes dst src src.length = dst ++ src := by
  unfold appendBytes
  split
  · rename_i h
    simp [List.length_eq_zero_iff.1 h]
  · rw [List.take_length, memmove_resize]

/-- The packet `EncodeKVRequestToPacket` makes of a body. -/
def requestPacket (opcode : UInt16) (body : Bytes) : Packet where
  head :=
    { magic := kDefaultMagic
      version := kDefaultVersion
      msgType := kRequest
      opcode := opcode
      status := kOk
      bodyLength := UInt32.ofNat body.length
      requestId := 0 }
  body := body

/-- The last check of the encoders. -/
theorem maxBody_guard {body : Bytes} {made p : Packet} :
    (if body.length > kMaxBodyLength.toNat then none else some made) = some p ↔
      body.length ≤ 2 ^ 21 ∧ p = made := by
  rw [kMaxBodyLength_toNat, Option.ite_none_left_eq_some, Option.some.injEq, Nat.not_lt,
    eq_comm (a := made)]

/-! ## Strings of a body -/

theorem readBodyString_sound {body : Bytes} {offset next : Nat} {len : UInt32}
    {value : Bytes} (h : readBodyString body offset len = some (value, next)) :
    body.take next = body.take offset ++ value ∧ value.length = len.toNat ∧
      next ≤ body.length := by
  unfold readBodyString at h
  split at h
  · cases h
  · rename_i hlen
    obtain ⟨rfl, rfl⟩ := Prod.mk.inj (Option.some.inj h)
    refine ⟨?_, slice_length (by omega), by omega⟩
    rw [List.take_add]
    rfl

theorem readBodyString_append (done rest : Bytes) {value : Bytes}
    (hlen : value.length < 2 ^ 32) :
    readBodyString (done ++ (value ++ rest)) done.length (UInt32.ofNat value.length) =
      some (value, (done ++ value).length) := by
  rw [readBodyString, toNat_ofNat_of_lt hlen, if_neg (by simp),
    slice_append_right rfl, List.take_left, List.length_append]

theorem requestPacket_framed {opcode : UInt16} {key value body : Bytes}
    (h : RequestBody opcode key value body) : (requestPacket opcode body).Framed := by
  have hlen := h.length_le
  exact toNat_ofNat_of_lt (by omega)

section Codec

variable [Host]

theorem appendHostInteger_eq (dst : Bytes) (value : UInt32) :
    appendHostInteger dst value = dst ++ beBytes value := by
  have hlen : WireInt.size UInt32 = (beBytes value).length := by simp
  rw [appendHostInteger, hostBytes_hToN, hlen, appendBytes_eq]

/-- **Encoding in closed form**: packets are made of exactly the bodies of the
grammar. -/
theorem encodeKVRequestToPacket_eq_some_iff (r : KVRequest) (p : Packet) :
    encodeKVRequestToPacket r = some p ↔
      ∃ body, RequestBody r.opcode r.wireKey r.wireValue body ∧
        p = requestPacket r.opcode body := by
  obtain ⟨opcode, key, value, extrainfo⟩ := r
  simp only [encodeKVRequestToPacket, KVRequest.wireKey, KVRequest.wireValue]
  by_cases hping : opcode = kPing
  · subst hping
    simp only [if_true, opcodes_ne, if_false, ping_body_iff]
    change (if ([] : Bytes).length > kMaxBodyLength.toNat then none
      else some (requestPacket kPing [])) = some p ↔ _
    rw [maxBody_guard]
    simp
  by_cases hput : opcode = kPut
  · subst hput
    simp only [if_true, opcodes_ne, if_false, put_body_iff, appendHostInteger_eq,
      appendBytes_eq, List.nil_append]
    constructor
    · intro h
      split at h
      · cases h
      rename_i hcheck
      change (if _ > _ then none else some (requestPacket kPut _)) = some p at h
      rw [maxBody_guard] at h
      obtain ⟨hlen, rfl⟩ := h
      simp only [List.length_append] at hlen
      rw [← or_assoc, not_or, keyLength_check, valueLength_check,
        toNat_ofNat_of_lt (by omega), toNat_ofNat_of_lt (by omega)] at hcheck
      refine ⟨_, ⟨hcheck.1, hcheck.2, rfl⟩, ?_⟩
      rw [beBytes_ofNat (by omega), beBytes_ofNat (by omega)]
    · rintro ⟨body, ⟨hkey, hvalue, rfl⟩, rfl⟩
      have hlen := (RequestBody.put hkey hvalue).length_le
      unfold KeyAllowed at hkey
      unfold ValueAllowed at hvalue
      rw [if_neg, beBytes_ofNat (by omega), beBytes_ofNat (by omega)]
      · exact maxBody_guard.2 ⟨hlen, rfl⟩
      · rw [← or_assoc, not_or, keyLength_check, valueLength_check,
          toNat_ofNat_of_lt (by omega), toNat_ofNat_of_lt (by omega)]
        exact ⟨hkey, hvalue⟩
  by_cases hkey : opcode = kGet ∨ opcode = kDel
  · simp only [if_neg hping, if_neg hput, if_pos hkey, get_del_body_iff hkey,
      appendHostInteger_eq, appendBytes_eq, List.nil_append]
    constructor
    · intro h
      split at h
      · cases h
      rename_i hcheck
      change (if _ > _ then none else some (requestPacket opcode _)) = some p at h
      rw [maxBody_guard] at h
      obtain ⟨hlen, rfl⟩ := h
      simp only [List.length_append] at hlen
      rw [keyLength_check, toNat_ofNat_of_lt (by omega)] at hcheck
      exact ⟨_, ⟨hcheck, trivial, rfl⟩, by rw [beBytes_ofNat (by omega)]⟩
    · rintro ⟨body, ⟨hallowed, _, rfl⟩, rfl⟩
      have hlen := ((get_del_body_iff hkey).2 ⟨hallowed, rfl, rfl⟩).length_le
      unfold KeyAllowed at hallowed
      rw [if_neg, beBytes_ofNat (by omega)]
      · exact maxBody_guard.2 ⟨hlen, rfl⟩
      · rw [keyLength_check, toNat_ofNat_of_lt (by omega)]
        exact hallowed
  · rw [if_neg hping, if_neg hput, if_neg hkey]
    simp only [Option.bind_eq_bind, Option.bind_none, reduceCtorEq, false_iff]
    intro hexists
    obtain ⟨body, hbody, _⟩ := hexists
    exact not_requestBody hping hput hkey hbody

/-! ## Reading a body -/

theorem readBodyInteger_eq (body : Bytes) (offset : Nat) :
    readBodyInteger UInt32 body offset =
      if offset + 4 ≤ body.length then
        some (ofBeBytes (slice body offset 4), offset + 4)
      else none := by
  unfold readBodyInteger
  split
  · rename_i h
    exact writeFlowToHost_eq offset h (Nat.le_refl _)
  · rename_i h
    rw [writeFlowToHost, if_pos (by simp only [size_uint32]; omega)]

/-- An integer read is what stands at the offset. -/
theorem readBodyInteger_sound {body : Bytes} {offset next : Nat} {value : UInt32}
    (h : readBodyInteger UInt32 body offset = some (value, next)) :
    body.take next = body.take offset ++ natBytes 4 value.toNat ∧
      next = offset + 4 ∧ next ≤ body.length := by
  rw [readBodyInteger_eq] at h
  split at h
  · rename_i hlen
    obtain ⟨rfl, rfl⟩ := Prod.mk.inj (Option.some.inj h)
    refine ⟨?_, rfl, hlen⟩
    have hbytes : natBytes 4 (ofBeBytes (slice body offset 4) : UInt32).toNat =
        slice body offset 4 :=
      beBytes_ofBeBytes (T := UInt32) (slice_length hlen)
    rw [hbytes, List.take_add]
    rfl
  · cases h

theorem readBodyInteger_append (done rest : Bytes) {n : Nat} (hn : n < 2 ^ 32) :
    readBodyInteger UInt32 (done ++ (natBytes 4 n ++ rest)) done.length =
      some (UInt32.ofNat n, (done ++ natBytes 4 n).length) := by
  rw [readBodyInteger_eq, if_pos (by simp), slice_append_right rfl,
    List.take_left' (natBytes_length 4 n), ← beBytes_ofNat hn, ofBeBytes_beBytes]
  simp

/-- The reads the decoder makes on the body of a `PUT`. -/
theorem put_body_iff_reads {key value body : Bytes} :
    RequestBody kPut key value body ↔
      ∃ keyLength o₁ valueLength o₂ o₃,
        readBodyInteger UInt32 body 0 = some (keyLength, o₁) ∧
        readBodyInteger UInt32 body o₁ = some (valueLength, o₂) ∧
        ¬(keyLength = 0 ∨ keyLength > kMaxKeyLength ∨ valueLength > kMaxValueLength) ∧
        readBodyString body o₂ keyLength = some (key, o₃) ∧
        readBodyString body o₃ valueLength = some (value, body.length) := by
  rw [put_body_iff]
  constructor
  · rintro ⟨hkey, hvalue, rfl⟩
    unfold KeyAllowed at hkey
    unfold ValueAllowed at hvalue
    have hk : key.length < 2 ^ 32 := by omega
    have hv : value.length < 2 ^ 32 := by omega
    have h₁ := readBodyInteger_append [] (natBytes 4 value.length ++ (key ++ value)) hk
    have h₂ := readBodyInteger_append (natBytes 4 key.length) (key ++ value) hv
    have h₃ := readBodyString_append (natBytes 4 key.length ++ natBytes 4 value.length)
      value hk
    have h₄ := readBodyString_append
      (natBytes 4 key.length ++ natBytes 4 value.length ++ key) [] hv
    simp only [List.append_assoc, List.nil_append, List.append_nil, List.length_nil]
      at h₁ h₂ h₃ h₄ ⊢
    refine ⟨_, _, _, _, _, h₁, h₂, ?_, h₃, h₄⟩
    rw [← or_assoc, not_or, keyLength_check, valueLength_check, toNat_ofNat_of_lt hk,
      toNat_ofNat_of_lt hv]
    exact ⟨hkey, hvalue⟩
  · rintro ⟨keyLength, o₁, valueLength, o₂, o₃, h₁, h₂, hcheck, h₃, h₄⟩
    rw [← or_assoc, not_or, keyLength_check, valueLength_check] at hcheck
    obtain ⟨ht₁, _, _⟩ := readBodyInteger_sound h₁
    obtain ⟨ht₂, _, _⟩ := readBodyInteger_sound h₂
    obtain ⟨ht₃, hkey, _⟩ := readBodyString_sound h₃
    obtain ⟨ht₄, hvalue, _⟩ := readBodyString_sound h₄
    rw [List.take_length] at ht₄
    unfold KeyAllowed ValueAllowed
    rw [hkey, hvalue]
    refine ⟨hcheck.1, hcheck.2, ?_⟩
    calc body = body.take o₃ ++ value := ht₄
      _ = natBytes 4 keyLength.toNat ++ natBytes 4 valueLength.toNat ++ key ++ value := by
          rw [ht₃, ht₂, ht₁, List.take_zero, List.nil_append]

/-- The reads the decoder makes on the body of a `GET` or `DEL`. -/
theorem get_del_body_iff_reads {opcode : UInt16} (h : opcode = kGet ∨ opcode = kDel)
    {key value body : Bytes} :
    RequestBody opcode key value body ↔ value = [] ∧
      ∃ keyLength o₁,
        readBodyInteger UInt32 body 0 = some (keyLength, o₁) ∧
        ¬(keyLength = 0 ∨ keyLength > kMaxKeyLength) ∧
        readBodyString body o₁ keyLength = some (key, body.length) := by
  rw [get_del_body_iff h]
  constructor
  · rintro ⟨hkey, rfl, rfl⟩
    unfold KeyAllowed at hkey
    have hk : key.length < 2 ^ 32 := by omega
    have h₁ := readBodyInteger_append [] key hk
    have h₂ := readBodyString_append (natBytes 4 key.length) [] hk
    simp only [List.nil_append, List.append_nil, List.length_nil] at h₁ h₂
    refine ⟨rfl, _, _, h₁, ?_, h₂⟩
    rw [keyLength_check, toNat_ofNat_of_lt hk]
    exact hkey
  · rintro ⟨rfl, keyLength, o₁, h₁, hcheck, h₂⟩
    rw [keyLength_check] at hcheck
    obtain ⟨ht₁, _, _⟩ := readBodyInteger_sound h₁
    obtain ⟨ht₂, hkey, _⟩ := readBodyString_sound h₂
    rw [List.take_length, ht₁, List.take_zero, List.nil_append, ← hkey] at ht₂
    unfold KeyAllowed
    exact ⟨hkey ▸ hcheck, rfl, ht₂⟩

/-- **Decoding in closed form**: exactly the bodies of the grammar are
accepted, in framed request packets. -/
theorem decodePacketToKVRequest_eq_some_iff (p : Packet) (r : KVRequest) :
    decodePacketToKVRequest p = some r ↔
      p.head.msgType = kRequest ∧ p.Framed ∧
        RequestBody p.head.opcode r.key r.value p.body ∧
        r.opcode = p.head.opcode ∧ r.extrainfo = [] := by
  obtain ⟨opcode, key, value, extrainfo⟩ := r
  unfold decodePacketToKVRequest
  by_cases htype : p.head.msgType = kRequest
  swap
  · simp [htype]
  rw [if_neg (not_not.2 htype)]
  by_cases hframed : p.head.bodyLength.toNat = p.body.length
  swap
  · simp [Packet.Framed, hframed]
  rw [if_neg (not_not.2 hframed)]
  by_cases hmax : p.head.bodyLength > kMaxBodyLength
  · rw [if_pos hmax]
    simp only [reduceCtorEq, false_iff]
    rintro ⟨_, _, hbody, _⟩
    refine (bodyLength_check _).2 ?_ hmax
    rw [hframed]
    exact hbody.length_le
  rw [if_neg hmax]
  simp only [htype, Packet.Framed, hframed, true_and]
  by_cases hping : p.head.opcode = kPing
  · rw [if_pos hping, hping, ping_body_iff]
    by_cases hbody : p.body = []
    · simp [hbody]
      tauto
    · simp [hbody]
  by_cases hput : p.head.opcode = kPut
  · rw [if_neg hping, if_pos hput, hput, put_body_iff_reads]
    simp only [Option.bind_eq_bind, Option.bind_none, Option.ite_none_left_eq_some,
      Option.ite_none_right_eq_some, Option.bind_eq_some_iff, Prod.exists,
      Option.some.injEq, KVRequest.mk.injEq]
    constructor
    · rintro ⟨_, _, h₁, _, _, h₂, hcheck, _, _, h₃, _, _, h₄, rfl, rfl, rfl, rfl, rfl⟩
      exact ⟨⟨_, _, _, _, _, h₁, h₂, hcheck, h₃, h₄⟩, rfl, rfl⟩
    · rintro ⟨⟨_, _, _, _, _, h₁, h₂, hcheck, h₃, h₄⟩, rfl, rfl⟩
      exact ⟨_, _, h₁, _, _, h₂, hcheck, _, _, h₃, _, _, h₄, rfl, rfl, rfl, rfl, rfl⟩
  by_cases hkey : p.head.opcode = kGet ∨ p.head.opcode = kDel
  · rw [if_neg hping, if_neg hput, if_pos hkey, get_del_body_iff_reads hkey]
    simp only [Option.bind_eq_bind, Option.bind_none, Option.ite_none_left_eq_some,
      Option.ite_none_right_eq_some, Option.bind_eq_some_iff, Prod.exists,
      Option.some.injEq, KVRequest.mk.injEq]
    constructor
    · rintro ⟨_, _, h₁, hcheck, _, _, h₂, rfl, rfl, rfl, rfl, rfl⟩
      exact ⟨⟨rfl, _, _, h₁, hcheck, h₂⟩, rfl, rfl⟩
    · rintro ⟨⟨rfl, _, _, h₁, hcheck, h₂⟩, rfl, rfl⟩
      exact ⟨_, _, h₁, hcheck, _, _, h₂, rfl, rfl, rfl, rfl, rfl⟩
  · rw [if_neg hping, if_neg hput, if_neg hkey]
    simp only [reduceCtorEq, false_iff]
    intro hand
    exact not_requestBody hping hput hkey hand.1

/-! ## Both directions together -/

/-- What comes back when an encoded request is decoded. -/
theorem decode_encodeKVRequest {r : KVRequest} {p : Packet}
    (h : encodeKVRequestToPacket r = some p) :
    decodePacketToKVRequest p = some ⟨r.opcode, r.wireKey, r.wireValue, []⟩ := by
  obtain ⟨body, hbody, rfl⟩ := (encodeKVRequestToPacket_eq_some_iff r p).1 h
  rw [decodePacketToKVRequest_eq_some_iff]
  exact ⟨rfl, requestPacket_framed hbody, hbody, rfl, rfl⟩

/-- What a decoded request is encoded to. -/
theorem encode_decodeKVRequest {p : Packet} {r : KVRequest}
    (h : decodePacketToKVRequest p = some r) :
    encodeKVRequestToPacket r = some (requestPacket p.head.opcode p.body) := by
  obtain ⟨opcode, key, value, extrainfo⟩ := r
  obtain ⟨_, _, hbody, rfl, rfl⟩ := (decodePacketToKVRequest_eq_some_iff p _).1 h
  rw [encodeKVRequestToPacket_eq_some_iff, (hbody.wire_eq []).1, (hbody.wire_eq []).2]
  exact ⟨p.body, hbody, rfl⟩

theorem decodePacketToKVRequest_isSome_iff (p : Packet) :
    (decodePacketToKVRequest p).isSome ↔
      p.head.msgType = kRequest ∧ p.head.bodyLength.toNat = p.body.length ∧
        p.head.bodyLength.toNat ≤ kMaxBodyLength.toNat ∧
        ∃ key value, RequestBody p.head.opcode key value p.body := by
  rw [Option.isSome_iff_exists]
  constructor
  · rintro ⟨r, hr⟩
    obtain ⟨htype, hframed, hbody, _⟩ := (decodePacketToKVRequest_eq_some_iff p r).1 hr
    refine ⟨htype, hframed, ?_, r.key, r.value, hbody⟩
    rw [show p.head.bodyLength.toNat = p.body.length from hframed]
    exact hbody.length_le
  · rintro ⟨htype, hframed, _, key, value, hbody⟩
    exact ⟨⟨p.head.opcode, key, value, []⟩,
      (decodePacketToKVRequest_eq_some_iff p _).2 ⟨htype, hframed, hbody, rfl, rfl⟩⟩

/-- **The request codec is exact**: which requests are encoded, what comes back
of them, which packets are decoded, and that decoding loses nothing. -/
theorem requestCodec_exact :
    (∀ r : KVRequest, (encodeKVRequestToPacket r).isSome ↔ r.Encodable) ∧
    (∀ (r : KVRequest) (p : Packet), encodeKVRequestToPacket r = some p →
      decodePacketToKVRequest p =
        some { opcode := r.opcode
               key := if r.opcode = kPing then [] else r.key
               value := if r.opcode = kPut then r.value else []
               extrainfo := [] }) ∧
    (∀ p : Packet, (decodePacketToKVRequest p).isSome ↔
      p.head.msgType = kRequest ∧ p.head.bodyLength.toNat = p.body.length ∧
        p.head.bodyLength.toNat ≤ kMaxBodyLength.toNat ∧
        ∃ key value, RequestBody p.head.opcode key value p.body) ∧
    (∀ (p : Packet) (r : KVRequest), decodePacketToKVRequest p = some r →
      ∃ q, encodeKVRequestToPacket r = some q ∧ q.head.opcode = p.head.opcode ∧
        q.head.bodyLength = p.head.bodyLength ∧ q.body = p.body) := by
  refine ⟨?_, ?_, decodePacketToKVRequest_isSome_iff, ?_⟩
  · intro r
    rw [Option.isSome_iff_exists, ← exists_requestBody_iff]
    constructor
    · rintro ⟨p, hp⟩
      obtain ⟨body, hbody, _⟩ := (encodeKVRequestToPacket_eq_some_iff r p).1 hp
      exact ⟨body, hbody⟩
    · rintro ⟨body, hbody⟩
      exact ⟨_, (encodeKVRequestToPacket_eq_some_iff r _).2 ⟨body, hbody, rfl⟩⟩
  · intro r p h
    exact decode_encodeKVRequest h
  · intro p r h
    obtain ⟨_, hframed, _⟩ := (decodePacketToKVRequest_eq_some_iff p r).1 h
    refine ⟨_, encode_decodeKVRequest h, rfl, ?_, rfl⟩
    change UInt32.ofNat p.body.length = _
    rw [← show p.head.bodyLength.toNat = p.body.length from hframed, UInt32.ofNat_toNat]

end Codec

/-- A `PUT` of the value `b` under the key `a`, there and back. -/
theorem requestCodec_exact_put :
    let _ : Host := ⟨false⟩
    let put : KVRequest := ⟨kPut, [97], [98], []⟩
    encodeKVRequestToPacket put =
        some (requestPacket kPut [0, 0, 0, 1, 0, 0, 0, 1, 97, 98]) ∧
      decodePacketToKVRequest (requestPacket kPut [0, 0, 0, 1, 0, 0, 0, 1, 97, 98]) =
        some put := by
  intro _ put
  have hencode : encodeKVRequestToPacket put =
      some (requestPacket kPut [0, 0, 0, 1, 0, 0, 0, 1, 97, 98]) := by decide
  exact ⟨hencode, requestCodec_exact.2.1 put _ hencode⟩

end Adachi.Kv
