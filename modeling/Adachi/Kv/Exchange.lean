import Adachi.Kv.Linearizable

/-!
# Requests and responses over the wire

A client that uses the codec on its side and `ShouldEcho` on the other: the request is encoded
to a packet and to bytes, decoded from the bytes and executed, and the response takes the same
way back.  Any number of clients share the service.

What is answered is said without a map: the response to a request depends on the last write to
its key that comes before it in the common order (`lastWrite`).

## Main results

* `answered_by_last_write`: every response that a client decodes is the one to its request, as
  the last write to the key before it says.
-/

namespace Adachi.Kv

open Adachi.Io ByteOrder SharedObject

section Wire

variable [Host]

/-- The way of a request: encoded by the client, decoded by the server -/
def sendRequest (request : KVRequest) : Option Packet := do
  let packet ← encodeKVRequestToPacket request
  let flow ← encodePacketToFlow packet []
  decodeFlowToPacketView flow

/-- The way of a response: encoded by the server, decoded by the client -/
def receiveResponse (echo : Option Packet) : Option KVResponse := do
  let echo ← echo
  let flow ← encodePacketToFlow echo []
  let packet ← decodeFlowToPacketView flow
  decodePacketToKVResponse packet

/-- A request that the codec accepts, and the packet that arrives. -/
structure Sent where
  request : KVRequest
  packet : Packet
  sent : sendRequest request = some packet

/-- `ShouldEcho`, from request to response -/
def exchange : SharedObject Sent StoreCall KVResponse KVStore (Option KVResponse) where
  prepare w := KVService.echoRequest w.packet
  exec call kvstore := call.exec kvstore
  reply w response := receiveResponse (KVService.echoReply w.packet response)

theorem exchange_apply (kvstore : KVStore) (w : Sent) :
    exchange.apply kvstore w =
      (receiveResponse (echoObject.apply kvstore w.packet).1,
        (echoObject.apply kvstore w.packet).2) := by
  unfold SharedObject.apply
  cases hprepare : KVService.echoRequest w.packet with
  | inl response =>
      rw [show exchange.prepare w = _ from hprepare,
        show echoObject.prepare w.packet = _ from hprepare]
      rfl
  | inr call =>
      rw [show exchange.prepare w = _ from hprepare,
        show echoObject.prepare w.packet = _ from hprepare]
      rfl

/-! ## What a request and a response lose on the way -/

/-- The packet arrives that was made. -/
theorem sendRequest_eq (request : KVRequest) :
    sendRequest request = encodeKVRequestToPacket request := by
  unfold sendRequest
  cases hencode : encodeKVRequestToPacket request with
  | none => rfl
  | some packet =>
      obtain ⟨body, hbody, rfl⟩ := (encodeKVRequestToPacket_eq_some_iff request packet).1 hencode
      have hflow := decodeFlowToPacketView_packetBytes (requestPacket_framed hbody) []
      rw [List.append_nil] at hflow
      rw [Option.bind_eq_bind, Option.bind_some, encodePacketToFlow_eq, Option.bind_eq_bind,
        Option.bind_some, hflow]

/-- The request that is decoded has no key and no value that its opcode does not need. -/
theorem Sent.decode (w : Sent) :
    w.packet.head.status = kOk ∧ w.packet.head.opcode = w.request.opcode ∧
      decodePacketToKVRequest w.packet =
        some ⟨w.request.opcode, w.request.wireKey, w.request.wireValue, []⟩ ∧
      ∃ body, RequestBody w.request.opcode w.request.wireKey w.request.wireValue body := by
  have hencode := w.sent
  rw [sendRequest_eq] at hencode
  obtain ⟨body, hbody, hmade⟩ := (encodeKVRequestToPacket_eq_some_iff _ _).1 hencode
  refine ⟨?_, ?_, decode_encodeKVRequest hencode, body, hbody⟩
  · rw [hmade]
    rfl
  · rw [hmade]
    rfl

/-- A response within the limits arrives as it was made. -/
theorem receiveResponse_reply (p : Packet) (status : UInt16) {value : Bytes}
    (h : ValueAllowed value) :
    receiveResponse (some (replyPacket p status value)) =
      some ⟨status, [], if CarriesValue p.head.opcode status then value else [], []⟩ := by
  have hbody : ResponseBody p.head.opcode status
      (if CarriesValue p.head.opcode status then value else [])
      (if CarriesValue p.head.opcode status then natBytes 4 value.length ++ value else []) := by
    split
    · rename_i hcarries
      exact .value hcarries h
    · rename_i hcarries
      exact .empty hcarries
  have hframed : (responsePacket p.head.opcode status p.head.requestId _).Framed :=
    responsePacket_framed hbody
  have hflow := decodeFlowToPacketView_packetBytes hframed []
  rw [List.append_nil] at hflow
  show (encodePacketToFlow _ [] >>= fun flow => decodeFlowToPacketView flow >>= _) = _
  rw [encodePacketToFlow_eq]
  show (decodeFlowToPacketView _ >>= _) = _
  rw [replyPacket, hflow]
  exact (decodePacketToKVResponse_eq_some_iff _ _).2 ⟨hbody, rfl, rfl, rfl⟩

end Wire

/-! ## What is expected -/

/-- What is stored under a key after a request, if `stored` was before. -/
def written (key : Bytes) (stored : Option Bytes) (request : KVRequest) : Option Bytes :=
  if request.opcode = kPut ∧ request.key = key then some request.value
  else if request.opcode = kDel ∧ request.key = key then none
  else stored

/-- The response to a request whose key has `stored`. -/
def expected (request : KVRequest) (stored : Option Bytes) : KVResponse :=
  if request.opcode = kPing ∨ request.opcode = kPut then ⟨kOk, [], [], []⟩
  else
    match stored with
    | none => ⟨kNotFound, [], [], []⟩
    | some value => ⟨kOk, [], if request.opcode = kGet then value else [], []⟩

section Service

variable [Host] {ι : Type}

/-- What the last `PUT` or `DEL` of the key leaves under it. -/
def lastWrite (key : Bytes) (order : List (ι × Sent)) : Option Bytes :=
  order.foldl (fun stored w => written key stored w.2.request) none

omit [Host] in
theorem opcodes_ne_del : kPing ≠ kDel ∧ kPut ≠ kDel ∧ kGet ≠ kDel := by decide

omit [Host] in
theorem lookup_insert_ite (m : KVMap) (key value k : Bytes) :
    (m.insert key value).lookup k = if key = k then some value else m.lookup k := by
  by_cases hk : key = k
  · subst hk
    rw [if_pos rfl]
    exact Finmap.lookup_insert m
  · rw [if_neg hk]
    exact Finmap.lookup_insert_of_ne m (Ne.symm hk)

omit [Host] in
theorem lookup_erase_ite (m : KVMap) (key k : Bytes) :
    (m.erase key).lookup k = if key = k then none else m.lookup k := by
  by_cases hk : key = k
  · subst hk
    rw [if_pos rfl]
    exact Finmap.lookup_erase key m
  · rw [if_neg hk]
    exact Finmap.lookup_erase_ne (Ne.symm hk)

/-- What a map answers, without the map. -/
theorem answer_expected (m : KVMap) (w : Sent) :
    (⟨(m.answer w.packet).1.1, [],
        if CarriesValue w.packet.head.opcode (m.answer w.packet).1.1 then (m.answer w.packet).1.2
        else [], []⟩ : KVResponse) = expected w.request (m.lookup w.request.key) ∧
      ((m.answer w.packet).1.2 = [] ∨
        m.lookup w.request.key = some (m.answer w.packet).1.2) ∧
      ∀ key, (m.answer w.packet).2.lookup key = written key (m.lookup key) w.request := by
  obtain ⟨hstatus, hopcode, hdecode, body, hbody⟩ := w.decode
  have hcases := hbody.opcode_cases
  unfold KVMap.answer
  rw [if_pos hstatus, hdecode, hopcode]
  dsimp only
  obtain ⟨⟨opcode, key, value, extrainfo⟩, packet, hsent⟩ := w
  unfold KVRequest.wireKey KVRequest.wireValue expected written CarriesValue
  dsimp only at hcases ⊢
  rcases hcases with rfl | rfl | rfl | rfl
  · simp [opcodes_ne, opcodes_ne_del]
  · simp [opcodes_ne, opcodes_ne_del, lookup_insert_ite]
  · cases hlookup : m.lookup key with
    | none => simp [opcodes_ne, opcodes_ne_del, hlookup]
    | some value => simp [opcodes_ne, opcodes_ne_del, hlookup]
  · cases hlookup : m.lookup key with
    | none => simp [opcodes_ne, hlookup]
    | some value => simp [opcodes_ne, hlookup, lookup_erase_ite]

/-- **Step lemma**: one exchange with a store whose values the protocol can carry. -/
theorem exchange_step {mp : KVStore} (h : mp.Bounded) (w : Sent) :
    (exchange.apply mp w).1 = some (expected w.request (mp.map.lookup w.request.key)) ∧
      (exchange.apply mp w).2.Bounded ∧
      ∀ key, (exchange.apply mp w).2.map.lookup key =
        written key (mp.map.lookup key) w.request := by
  obtain ⟨hecho, hbounded, hmap⟩ := echoObject_sim ⟨h, rfl⟩ w.packet
  obtain ⟨hexpected, hvalue, hwritten⟩ := answer_expected mp.map w
  have hallowed : ValueAllowed (mp.map.answer w.packet).1.2 := by
    rcases hvalue with hnone | hstored
    · rw [hnone]
      exact Nat.zero_le _
    · exact h _ _ hstored
  rw [exchange_apply]
  dsimp only
  rw [hecho]
  refine ⟨?_, hbounded, ?_⟩
  · rw [← hexpected]
    exact receiveResponse_reply w.packet _ hallowed
  · intro key
    rw [hmap]
    exact hwritten key

/-- **Run lemma**: under each key there is what the last write left. -/
theorem stored_eq_lastWrite (order : List (ι × Sent)) :
    (replay exchange.apply KVStore.new order).Bounded ∧
      ∀ key, (replay exchange.apply KVStore.new order).map.lookup key =
        lastWrite key order := by
  induction order using List.reverseRecOn with
  | nil =>
      refine ⟨KVStore.bounded_new, ?_⟩
      intro key
      exact Finmap.lookup_empty key
  | append_singleton order op ih =>
      obtain ⟨hbounded, hstored⟩ := ih
      obtain ⟨_, hnext, hwritten⟩ := exchange_step hbounded op.2
      rw [replay_append]
      refine ⟨hnext, ?_⟩
      intro key
      rw [lastWrite, List.foldl_append, ← lastWrite, ← hstored]
      exact hwritten key

/-- **Every response is what the last write says.**  Any number of clients send requests that
the codec accepts, and their calls of `ShouldEcho` are interleaved in any way.  Then there is an
order of the requests that have been executed, which a longer run only continues and which
keeps the order of each client, such that the `n`th response that a client decodes belongs to its
`n`th request, and is the one to be expected after the last `PUT` or `DEL` of the key that comes
before it in the order, whichever client sent that. -/
theorem answered_by_last_write [DecidableEq ι] (requests : ι → List Sent) :
    ∃ order : List ι → List (ι × Sent),
      (∀ run more, order run <+: order (run ++ more)) ∧
      ∀ run c,
        let me := (exchange.machine.run (SharedObject.start KVStore.new requests) run).client c
        opsOf c (order run) ++ (me.begun ++ me.todo) = requests c ∧
        ∀ (n : Nat) response, me.answers[n]? = some response →
          ∃ before w after, order run = before ++ (c, w) :: after ∧
            (requests c)[n]? = some w ∧
            response = some (expected w.request (lastWrite w.request.key before)) := by
  refine ⟨exchange.order KVStore.new requests, exchange.order_append KVStore.new requests, ?_⟩
  intro run c me
  have haccounted := linearizable exchange KVStore.new requests run
  generalize exchange.order KVStore.new requests run = order at haccounted
  have hops : opsOf c order ++ (me.begun ++ me.todo) = requests c := haccounted.ops c
  refine ⟨hops, ?_⟩
  intro n response hresponse
  have hanswer : (answersOf exchange.apply c KVStore.new order)[n]? = some response := by
    rw [haccounted.answers c, List.getElem?_append_left]
    · exact hresponse
    · exact (List.getElem?_eq_some_iff.1 hresponse).1
  obtain ⟨before, w, after, rfl, hn, hmade⟩ := answersOf_getElem? _ hanswer
  obtain ⟨hbounded, hstored⟩ := stored_eq_lastWrite before
  refine ⟨before, w, after, rfl, ?_, ?_⟩
  · rw [← hops, opsOf_append, ← hn, List.append_assoc, List.getElem?_append_right (Nat.le_refl _),
      Nat.sub_self, opsOf, if_pos rfl]
    rfl
  · rw [hmade, (exchange_step hbounded w).1, hstored]

end Service

end Adachi.Kv
