import Adachi.Kv.KvService
import Adachi.Kv.ResponseCodec
import Adachi.Lib.SharedObject

/-!
# `ShouldEcho` serves a finite map

What the service is for, stated on its own: `KVMap.answer` is what a finite map
answers to a request packet, `replyPacket` the packet that carries an answer.
`shouldEcho_refines` is the proof that `ShouldEcho` gives exactly these packets,
as long as no stored value is longer than the protocol allows, and that it keeps
it so.  The encoder of responses then never fails.
-/

namespace Adachi.Kv

open Adachi.Io ByteOrder

/-! ## The sequential map -/

/-- The packet that carries an answer to `p`. -/
def replyPacket (p : Packet) (status : UInt16) (value : Bytes) : Packet :=
  responsePacket p.head.opcode status p.head.requestId
    (if CarriesValue p.head.opcode status then natBytes 4 value.length ++ value else [])

section Spec

variable [Host]

/-- The status and the value a map answers to a request packet, and the map after
it.  A packet that comes with an error gets that error. -/
def KVMap.answer (m : KVMap) (p : Packet) : (UInt16 × Bytes) × KVMap :=
  if p.head.status = kOk then
    match decodePacketToKVRequest p with
    | none => ((kBadRequest, []), m)
    | some request =>
        if request.opcode = kPing then ((kOk, []), m)
        else if request.opcode = kPut then
          ((kOk, []), m.insert request.key request.value)
        else
          match m.lookup request.key with
          | none => ((kNotFound, []), m)
          | some value =>
              if request.opcode = kGet then ((kOk, value), m)
              else ((kOk, []), m.erase request.key)
  else ((p.head.status, []), m)

/-- Answer with a packet. -/
def KVMap.serve (m : KVMap) (p : Packet) : Packet × KVMap :=
  (replyPacket p (m.answer p).1.1 (m.answer p).1.2, (m.answer p).2)

/-! ## Encoding the response -/

/-- The response encoder fails on no response but an overlong value. -/
theorem encodeReply_eq (p : Packet) {r : KVResponse} (h : ValueAllowed r.value) :
    encodeKVResponseToPacket r p.head.opcode p.head.requestId =
      some (replyPacket p r.status r.value) := by
  rw [encodeKVResponseToPacket_eq_some_iff]
  refine ⟨_, ?_, rfl⟩
  unfold KVResponse.wireValue
  by_cases hcarries : CarriesValue p.head.opcode r.status
  · rw [if_pos hcarries, if_pos hcarries]
    exact .value hcarries h
  · rw [if_neg hcarries, if_neg hcarries]
    exact .empty hcarries

theorem echoReply_eq (p : Packet) {r : KVResponse} (h : ValueAllowed r.value) :
    KVService.echoReply p r = some (replyPacket p r.status r.value) := by
  unfold KVService.echoReply
  rw [encodeReply_eq p h]

/-! ## Refinement -/

/-- `ShouldEcho` as an operation on a locked object. -/
def echoObject : SharedObject Packet StoreCall KVResponse KVStore (Option Packet) where
  prepare := KVService.echoRequest
  exec call kvstore := call.exec kvstore
  reply := KVService.echoReply

theorem shouldEcho_eq (kvstore : KVStore) (buffer : Buffer) (p : Packet) :
    KVService.default.shouldEcho kvstore buffer p = echoObject.apply kvstore p := by
  unfold KVService.shouldEcho SharedObject.apply
  rw [show echoObject.prepare p = KVService.echoRequest p from rfl,
    if_neg (show ¬(!KVService.default.shouldecho buffer p) = true from Bool.noConfusion)]
  cases KVService.echoRequest p with
  | inl response => rfl
  | inr call => rfl

/-- Every stored value is one the protocol can carry. -/
def KVStore.Bounded (mp : KVStore) : Prop :=
  ∀ key value, mp.map.lookup key = some value → ValueAllowed value

section Bounds

omit [Host]

theorem KVStore.bounded_new : KVStore.new.Bounded := by
  intro key value h
  simp at h

theorem KVStore.Bounded.put {mp : KVStore} (h : mp.Bounded) {request : KVRequest}
    (hvalue : ValueAllowed request.value) : (mp.put request).2.Bounded := by
  intro key value hlookup
  rw [KVStore.map_put] at hlookup
  by_cases hkey : key = request.key
  · subst hkey
    rw [Finmap.lookup_insert] at hlookup
    exact Option.some.inj hlookup ▸ hvalue
  · rw [Finmap.lookup_insert_of_ne _ hkey] at hlookup
    exact h key value hlookup

theorem KVStore.Bounded.erase {mp : KVStore} (h : mp.Bounded) (erased : Bytes) :
    KVStore.Bounded (mp.erase erased) := by
  intro key value hlookup
  rw [KVStore.map_erase] at hlookup
  by_cases hkey : key = erased
  · subst hkey
    rw [Finmap.lookup_erase] at hlookup
    cases hlookup
  · rw [Finmap.lookup_erase_ne hkey] at hlookup
    exact h key value hlookup

end Bounds

/-- **One request, served**: the packet and the store are those of the finite
map. -/
theorem shouldEcho_refines {mp : KVStore} (h : mp.Bounded) (buffer : Buffer)
    (p : Packet) :
    (KVService.default.shouldEcho mp buffer p).1 = some (mp.map.serve p).1 ∧
      (KVService.default.shouldEcho mp buffer p).2.map = (mp.map.serve p).2 ∧
      (KVService.default.shouldEcho mp buffer p).2.Bounded := by
  rw [shouldEcho_eq]
  unfold SharedObject.apply KVMap.serve KVMap.answer
  rw [show echoObject.prepare p = KVService.echoRequest p from rfl]
  unfold KVService.echoRequest
  dsimp only
  by_cases hok : p.head.status = kOk
  swap
  · rw [if_neg hok, if_neg hok]
    exact ⟨echoReply_eq p (Nat.zero_le _), rfl, h⟩
  rw [if_pos hok, if_pos hok]
  cases hdecode : decodePacketToKVRequest p with
  | none => exact ⟨echoReply_eq p (Nat.zero_le _), rfl, h⟩
  | some request =>
      obtain ⟨_, _, hbody, hopcode, _⟩ := (decodePacketToKVRequest_eq_some_iff p _).1 hdecode
      dsimp only
      by_cases hping : request.opcode = kPing
      · rw [if_pos hping, if_pos hping]
        exact ⟨echoReply_eq p (Nat.zero_le _), rfl, h⟩
      rw [if_neg hping, if_neg hping]
      by_cases hput : request.opcode = kPut
      · rw [if_pos hput, if_pos hput]
        exact ⟨echoReply_eq p (Nat.zero_le _), KVStore.map_put, h.put hbody.value_allowed⟩
      rw [if_neg hput, if_neg hput]
      by_cases hget : request.opcode = kGet
      · rw [if_pos hget]
        cases hlookup : mp.map.lookup request.key with
        | none =>
            have hexec : echoObject.exec (.get request) mp = _ := KVStore.get_of_none hlookup
            simp only [hexec]
            exact ⟨echoReply_eq p (Nat.zero_le _), trivial, h⟩
        | some value =>
            have hexec : echoObject.exec (.get request) mp = _ := KVStore.get_of_some hlookup
            simp only [hexec, if_pos hget]
            exact ⟨echoReply_eq p (h _ _ hlookup), trivial, h⟩
      · have hdel : request.opcode = kDel := by
          rcases hbody.opcode_cases with hop | hop | hop | hop
          · exact absurd (hopcode.trans hop) hping
          · exact absurd (hopcode.trans hop) hput
          · exact absurd (hopcode.trans hop) hget
          · exact hopcode.trans hop
        rw [if_neg hget, if_pos hdel]
        cases hlookup : mp.map.lookup request.key with
        | none =>
            have hexec : echoObject.exec (.del request) mp = _ := KVStore.del_of_none hlookup
            simp only [hexec]
            exact ⟨echoReply_eq p (Nat.zero_le _), trivial, h⟩
        | some value =>
            have hexec : echoObject.exec (.del request) mp = _ := KVStore.del_of_some hlookup
            simp only [hexec, if_neg hget]
            exact ⟨echoReply_eq p (Nat.zero_le _), KVStore.map_erase _, h.erase _⟩

end Spec

end Adachi.Kv
