import Adachi.Kv.Answers

/-!
# A client that pipelines its requests

From a list of requests to the responses that come back: the client encodes each request with
`EncodeKVRequestToPacket`, numbers it, and sends the flows one behind the other without waiting;
the server reads them as they arrive, cut in any way.

`HeadCheck` refuses every head that announces a body, and only a `PING` has none.  So what is
answered are the `PING`s before the first other request.

## Main results

* `pipeline_answered`: exactly these are answered, each with `kOk` under its own number, in the
  order of the requests; the first other request has the connection closed.
-/

namespace Adachi.Kv

open Adachi.Io Adachi.Network ByteOrder

/-! ## Requests on the wire -/

section Requests

variable [Host]

/-- A request that the codec accepts, the number it gets, and its packet. -/
structure Posted where
  request : KVRequest
  requestId : UInt64
  packet : Packet
  encoded : encodeKVRequestToPacket request = some packet

/-- The packet with its number -/
def Posted.wire (w : Posted) : Packet :=
  { w.packet with head := { w.packet.head with requestId := w.requestId } }

/-- The bytes of the requests -/
def flowOf (requests : List Posted) : Bytes := requests.flatMap fun w => packetBytes w.wire

/-- The requests before the first that is no `PING` -/
def leadingPings (requests : List Posted) : List Posted :=
  requests.takeWhile fun w => w.request.opcode = kPing

/-- The response to a `PING` -/
def pongPacket (w : Posted) : Packet := responsePacket kPing kOk w.requestId []

variable {w : Posted} {requests : List Posted}

theorem Posted.wire_framed (w : Posted) : w.wire.Framed := by
  obtain ⟨body, hbody, hmade⟩ := (encodeKVRequestToPacket_eq_some_iff _ _).1 w.encoded
  have hframed := requestPacket_framed hbody
  rw [← hmade] at hframed
  exact hframed

/-- A head is refused exactly when it is not the one of a `PING`. -/
theorem Posted.refused_iff (w : Posted) : w.wire.head.Refused ↔ w.request.opcode ≠ kPing := by
  obtain ⟨body, hbody, hmade⟩ := (encodeKVRequestToPacket_eq_some_iff _ _).1 w.encoded
  have hunbroken : ¬w.wire.head.Broken := by
    have hnot := requestPacket_not_broken hbody
    rw [← hmade] at hnot
    exact hnot
  have hbodyless : w.wire.head.bodyLength = 0 ↔ w.request.opcode = kPing := by
    rw [w.wire_framed.bodyLength_eq_zero_iff, ← hbody.eq_nil_iff]
    exact iff_of_eq (congrArg (· = []) (congrArg Packet.body hmade))
  unfold PacketHead.Refused
  rw [or_iff_right hunbroken]
  exact not_congr hbodyless

/-- The answer to the head of a `PING` -/
theorem Posted.answer_eq (hping : w.request.opcode = kPing) :
    answer w.wire.head = packetBytes (pongPacket w) := by
  obtain ⟨body, hbody, hmade⟩ := (encodeKVRequestToPacket_eq_some_iff _ _).1 w.encoded
  have hhead : w.wire.head = { (requestPacket kPing body).head with requestId := w.requestId } := by
    rw [← hping, ← hmade]
    rfl
  rw [hhead]
  rfl

theorem Posted.wire_bytes (hping : w.request.opcode = kPing) :
    packetBytes w.wire = headBytes w.wire.head := by
  have hnot : ¬w.wire.head.Refused := fun h => w.refused_iff.1 h hping
  have hzero : w.wire.head.bodyLength = 0 := by
    by_contra hbody
    exact hnot (.inr hbody)
  unfold packetBytes
  rw [w.wire_framed.bodyLength_eq_zero_iff.1 hzero, List.append_nil]

/-- Bytes at the front of the flow that make a head make the head of the first request. -/
theorem headAt_flow {stream : Bytes} (hlen : 24 ≤ stream.length)
    (hfront : stream <+: flowOf requests) :
    ∃ w rest, requests = w :: rest ∧ headAt stream = w.wire.head := by
  cases requests with
  | nil =>
      have hnone := List.prefix_nil.1 hfront
      simp [hnone] at hlen
  | cons w rest =>
      refine ⟨w, rest, rfl, ?_⟩
      obtain ⟨more, hmore⟩ := hfront
      have hhead : headAt (stream ++ more) = w.wire.head := by
        rw [hmore]
        show headAt (packetBytes w.wire ++ flowOf rest) = _
        rw [packetBytes, List.append_assoc, headAt_headBytes]
      rwa [headAt_append hlen] at hhead

omit [Host] in
theorem length_flatMap_headBytes (heads : List PacketHead) :
    (heads.flatMap headBytes).length = 24 * heads.length := by
  induction heads with
  | nil => rfl
  | cons head heads ih =>
      rw [List.flatMap_cons, List.length_append, ih, headBytes_length, List.length_cons]
      omega

/-- **What a parse of the flow finds.**  Heads at the front of what has arrived of the flow, none
of them refused, are those of leading `PING`s. -/
theorem heads_of_flow {heads : List PacketHead} {rest : Bytes}
    (haccepted : ∀ head ∈ heads, ¬head.Refused)
    (hfront : heads.flatMap headBytes ++ rest <+: flowOf requests) :
    ∃ taken left, requests = taken ++ left ∧ (∀ w ∈ taken, w.request.opcode = kPing) ∧
      heads = taken.map (fun w => w.wire.head) ∧ rest <+: flowOf left := by
  induction heads generalizing requests with
  | nil => exact ⟨[], requests, rfl, nofun, rfl, hfront⟩
  | cons head heads ih =>
      obtain ⟨hfirst, hothers⟩ := List.forall_mem_cons.1 haccepted
      rw [List.flatMap_cons, List.append_assoc] at hfront
      obtain ⟨w, requests, rfl, hhead⟩ := headAt_flow (by simp) hfront
      rw [headAt_headBytes] at hhead
      have hping : w.request.opcode = kPing := by
        by_contra hother
        exact hfirst (hhead ▸ w.refused_iff.2 hother)
      have hrest : heads.flatMap headBytes ++ rest <+: flowOf requests := by
        rw [show flowOf (w :: requests) = packetBytes w.wire ++ flowOf requests from rfl,
          w.wire_bytes hping, ← hhead] at hfront
        exact (List.prefix_append_right_inj _).1 hfront
      obtain ⟨taken, left, rfl, hpings, rfl, hleft⟩ := ih hothers hrest
      exact ⟨w :: taken, left, rfl, List.forall_mem_cons.2 ⟨hping, hpings⟩, by simp [hhead], hleft⟩

/-! ## Responses on the wire -/

/-- The responses, as the client splits and decodes them: numbers, statuses and values -/
def responsesOf (flow : Bytes) : List (UInt64 × Option KVResponse) :=
  (splitFlow flow).1.map fun p => (p.head.requestId, decodePacketToKVResponse p)

theorem responsesOf_pongs (requests : List Posted) :
    responsesOf (requests.flatMap fun w => packetBytes (pongPacket w)) =
      requests.map fun w => (w.requestId, some ⟨kOk, [], [], []⟩) := by
  have hempty : ResponseBody kPing kOk [] [] := .empty fun h => opcodes_ne.2.1 h.1.symm
  have hframed : ∀ p ∈ requests.map pongPacket, p.Framed := by
    intro p hp
    obtain ⟨w, _, rfl⟩ := List.mem_map.1 hp
    exact responsePacket_framed hempty
  have hsplit := splitFlow_flatten hframed (t := []) rfl
  rw [List.append_nil, List.map_map] at hsplit
  unfold responsesOf
  rw [List.flatMap_def,
    show (fun w => packetBytes (pongPacket w)) = packetBytes ∘ pongPacket from rfl, hsplit,
    List.map_map]
  apply List.map_congr_left
  intro w _
  have hdecode : decodePacketToKVResponse (pongPacket w) = some ⟨kOk, [], [], []⟩ :=
    (decodePacketToKVResponse_eq_some_iff _ _).2 ⟨hempty, rfl, rfl, rfl⟩
  simp only [Function.comp_apply, hdecode]
  rfl

/-! ## The exchange -/

/-- **The leading `PING`s are answered, and nothing else.**  A client sends any requests that the
codec accepts, one behind the other.  In every run with room in the buffers, at each point there
is a number of leading `PING`s such that what has been sent is the beginning of their responses,
and as long as the connection is open the write buffer holds the others; the client decodes them
to `kOk`, each under the number of its request.  When the handler has returned these are all the
requests that have arrived whole, or all leading `PING`s, and then the connection has been asked to
close. -/
theorem pipeline_answered (loop : LoopId) (fd : Nat) (callback added : Bool) (kvstore : KVStore)
    (ls : List KvLabel)
    (hlegal : kvConnection.Legal (KvConnection.start loop fd callback added kvstore) ls)
    (hroom : kvConnection.Each KvConnection.HasRoom
      (KvConnection.start loop fd callback added kvstore) ls)
    (requests : List Posted)
    (harrived : kvConnection.collect KvConnection.heard
      (KvConnection.start loop fd callback added kvstore) ls <+: flowOf requests) :
    let s := kvConnection.run (KvConnection.start loop fd callback added kvstore) ls
    let arrived := kvConnection.collect KvConnection.heard
      (KvConnection.start loop fd callback added kvstore) ls
    ∃ answered, answered <+: leadingPings requests ∧ 24 * answered.length ≤ arrived.length ∧
      sentBytes s.conn.effects <+: (answered.flatMap fun w => packetBytes (pongPacket w)) ∧
      (s.conn.status = .kConnecting → sentBytes s.conn.effects ++ s.conn.writeBuffer.unread =
        answered.flatMap fun w => packetBytes (pongPacket w)) ∧
      responsesOf (answered.flatMap fun w => packetBytes (pongPacket w)) =
        answered.map (fun w => (w.requestId, some ⟨kOk, [], [], []⟩)) ∧
      (s.running = false → arrived.length < 24 * (answered.length + 1) ∨
        answered = leadingPings requests ∧ s.conn.closeRequested = true) := by
  intro s arrived
  obtain ⟨heads, rest, hheads, _, hsent, hopen, hidle⟩ :=
    KvConnection.answers_in_order loop fd callback added kvstore ls hlegal hroom
  have hsplit : arrived = heads.flatMap headBytes ++ rest := hheads.split
  rw [hheads.split] at harrived
  obtain ⟨taken, left, rfl, hpings, rfl, hleft⟩ := heads_of_flow hheads.accepted harrived
  have hleading : leadingPings (taken ++ left) = taken ++ leadingPings left :=
    List.takeWhile_append_of_pos fun w hw => by simpa using hpings w hw
  have hlength : arrived.length = 24 * taken.length + rest.length := by
    rw [hsplit, List.length_append, length_flatMap_headBytes, List.length_map]
  have hanswers : (taken.map fun w => w.wire.head).flatMap answer =
      taken.flatMap fun w => packetBytes (pongPacket w) := by
    rw [List.flatMap_map]
    exact List.flatMap_congr fun w hw => Posted.answer_eq (hpings w hw)
  rw [hanswers] at hsent hopen
  refine ⟨taken, ?_, by omega, hsent, hopen, responsesOf_pongs taken, fun hreturned => ?_⟩
  · rw [hleading]
    exact List.prefix_append ..
  · rcases hidle hreturned with hshort | ⟨hrefused, hclose⟩
    · left
      omega
    · by_cases hlen : rest.length < 24
      · left
        omega
      · right
        obtain ⟨w, others, rfl, hhead⟩ := headAt_flow (Nat.not_lt.1 hlen) hleft
        have hother : w.request.opcode ≠ kPing := w.refused_iff.1 (hhead ▸ hrefused)
        refine ⟨?_, hclose⟩
        rw [hleading, leadingPings, List.takeWhile_cons_of_neg (by simpa using hother),
          List.append_nil]

end Requests

/-- A `PING`, with a `GET` behind it that has not arrived; the peer takes nothing. -/
theorem pipeline_answered_ping :
    let _ : Host := ⟨false⟩
    let s := kvConnection.run (KvConnection.start 0 7 true true KVStore.new)
      (KvConnection.pingRun 1)
    ∃ answered : List Posted, sentBytes s.conn.effects ++ s.conn.writeBuffer.unread =
      answered.flatMap fun w => packetBytes (pongPacket w) := by
  intro _ s
  obtain ⟨hlegal, hwaiting, _⟩ :=
    KvConnection.waiting_pingRun 0 7 true true KVStore.new 1 (by decide)
  let ping : Posted := ⟨⟨kPing, [], [], []⟩, 0, requestPacket kPing [],
    (encodeKVRequestToPacket_eq_some_iff _ _).2 ⟨[], .ping, rfl⟩⟩
  let get : Posted := ⟨⟨kGet, [97], [], []⟩, 1, requestPacket kGet [0, 0, 0, 1, 97],
    (encodeKVRequestToPacket_eq_some_iff _ _).2 ⟨_, .get (by decide), rfl⟩⟩
  obtain ⟨answered, _, _, _, hopen, _⟩ := pipeline_answered 0 7 true true KVStore.new
    (KvConnection.pingRun 1) hlegal room_pingRun [ping, get]
    (List.prefix_append KvConnection.ping _)
  exact ⟨answered, hopen hwaiting.status⟩

end Adachi.Kv
