import Adachi.Kv.ProtocolCodec

/-!
# Packets on the wire

What a packet looks like as a flow of bytes, stated on its own (`headBytes`,
`packetBytes`: every field big-endian, the body behind the head), and the
proof that `EncodePacketToFlow` writes exactly that and `DecodeFlowToPacket`
reads exactly that, whatever the byte order of the host.

## Main results

* `decodeFlowToPacket_eq`: decoding in closed form.
* `packetFlow_exact`: encoding and decoding are inverse to each other, the
  decoder accepts exactly the flows that hold a head and the body it
  announces, and a concatenation of packets is split back into them.
-/

namespace Adachi.Kv

open Adachi.Io Memory ByteOrder

/-! ## The wire format -/

/-- The 24 bytes of a head, in network byte order. -/
def headBytes (head : PacketHead) : Bytes :=
  beBytes head.magic ++ (beBytes head.version ++ (beBytes head.msgType ++
    (beBytes head.opcode ++ (beBytes head.status ++ (beBytes head.bodyLength ++
      beBytes head.requestId)))))

/-- A packet as a flow of bytes. -/
def packetBytes (p : Packet) : Bytes := headBytes p.head ++ p.body

/-- A packet whose head announces the body it has. -/
def Packet.Framed (p : Packet) : Prop := p.head.bodyLength.toNat = p.body.length

instance (p : Packet) : Decidable p.Framed :=
  inferInstanceAs (Decidable (p.head.bodyLength.toNat = p.body.length))

/-- The head found in the first 24 bytes of a flow. -/
def headAt (src : Bytes) : PacketHead where
  magic := ofBeBytes (slice src 0 4)
  version := ofBeBytes (slice src 4 2)
  msgType := ofBeBytes (slice src 6 2)
  opcode := ofBeBytes (slice src 8 2)
  status := ofBeBytes (slice src 10 2)
  bodyLength := ofBeBytes (slice src 12 4)
  requestId := ofBeBytes (slice src 16 8)

@[simp] theorem headBytes_length (head : PacketHead) : (headBytes head).length = 24 := by
  simp [headBytes]

@[simp] theorem packetBytes_length (p : Packet) :
    (packetBytes p).length = 24 + p.body.length := by
  simp [packetBytes]

theorem headAt_bodyLength (src : Bytes) :
    (headAt src).bodyLength.toNat = bytesNat (slice src 12 4) := by
  have hlt : bytesNat (slice src 12 4) < 2 ^ 32 := by
    refine Nat.lt_of_lt_of_le (bytesNat_lt _) ?_
    have hlen : (slice src 12 4).length ≤ 4 := List.length_take_le ..
    exact Nat.le_trans (Nat.pow_le_pow_right (by decide) hlen) (by decide)
  change (UInt32.ofNat _).toNat = _
  rw [UInt32.toNat_ofNat', Nat.mod_eq_of_lt hlt]

/-- A slice behind a finished part is a slice of the rest. -/
private theorem slice_skip {xs ys : Bytes} {off len : Nat} (h : xs.length ≤ off) :
    slice (xs ++ ys) off len = slice ys (off - xs.length) len := by
  simp [slice, List.drop_append, List.drop_of_length_le h]

private theorem slice_front {xs ys : Bytes} {len : Nat} (h : xs.length = len) :
    slice (xs ++ ys) 0 len = xs := by
  simp [slice, ← h]

/-- Reading the head of a flow that starts with one. -/
theorem headAt_headBytes (head : PacketHead) (rest : Bytes) :
    headAt (headBytes head ++ rest) = head := by
  simp [headAt, headBytes, slice_skip, slice_front]

/-- The head read from a flow is made of its first 24 bytes. -/
theorem headBytes_headAt {src : Bytes} (h : 24 ≤ src.length) :
    headBytes (headAt src) = src.take 24 := by
  have hfield : ∀ (T : Type) [WireInt T] (off : Nat), off + WireInt.size T ≤ 24 →
      beBytes (ofBeBytes (slice src off (WireInt.size T)) : T) =
        slice src off (WireInt.size T) := by
    intro T _ off hoff
    exact beBytes_ofBeBytes (slice_length (by omega))
  have h0 := hfield UInt32 0 (by decide)
  have h4 := hfield UInt16 4 (by decide)
  have h6 := hfield UInt16 6 (by decide)
  have h8 := hfield UInt16 8 (by decide)
  have h10 := hfield UInt16 10 (by decide)
  have h12 := hfield UInt32 12 (by decide)
  have h16 := hfield UInt64 16 (by decide)
  simp only [size_uint16, size_uint32, size_uint64] at h0 h4 h6 h8 h10 h12 h16
  simp only [headBytes, headAt, h0, h4, h6, h8, h10, h12, h16]
  rw [slice_append_slice src 12 4 8, slice_append_slice src 10 2 12,
    slice_append_slice src 8 2 14, slice_append_slice src 6 2 16,
    slice_append_slice src 4 2 18, slice_append_slice src 0 4 20]
  simp [slice]

section Codec

variable [Host]

/-! ## Integers, one at a time -/

theorem isBigEnd_eq : isBigEnd = Host.bigEndian := by
  cases hbig : Host.bigEndian <;> simp [isBigEnd, hostBytes, hbig] <;> decide

variable {T : Type} [WireInt T]

/-- What is stored after `HToN` is the big-endian encoding. -/
theorem hostBytes_hToN (x : T) : hostBytes (hToN x) = beBytes x := by
  rw [hToN, isBigEnd_eq]
  exact store_bswap x

/-- What is loaded and passed through `NToH` is the big-endian value. -/
theorem nToH_hostLoad {bs : Bytes} (h : bs.length = WireInt.size T) :
    nToH (hostLoad bs : T) = ofBeBytes bs := by
  rw [nToH, isBigEnd_eq]
  exact load_eq_bswap h

theorem writeFlowToHost_eq {src : Bytes} {len : Nat} (offset : Nat)
    (hlen : offset + WireInt.size T ≤ len) (hsrc : len ≤ src.length) :
    writeFlowToHost T src len offset =
      some (ofBeBytes (slice src offset (WireInt.size T)), offset + WireInt.size T) := by
  rw [writeFlowToHost, if_neg (by omega), nToH_hostLoad (slice_length (by omega))]

/-- Writing an integer behind what has been written so far, and going on. -/
theorem writeHostToFlow_bind (x : T) {done gap : Bytes} {len : Nat}
    (hlen : WireInt.size T + done.length ≤ len) (k : Bytes × Nat → Option Bytes) :
    (writeHostToFlow x done.length (done ++ gap) len >>= k) =
      k (done ++ beBytes x ++ gap.drop (WireInt.size T),
        (done ++ beBytes x).length) := by
  rw [writeHostToFlow, if_neg (by omega), hostBytes_hToN, memmove_append]
  simp

/-! ## Whole packets -/

/-- **Decoding in closed form**: of `len` readable bytes, the first 24 are the
head and the next `body_length`, if they are there, the body. -/
theorem decodeFlowToPacket_eq {src : Bytes} {len : Nat} (hsrc : len ≤ src.length) :
    decodeFlowToPacket src len =
      if 24 ≤ len ∧ 24 + (headAt src).bodyLength.toNat ≤ len then
        some ⟨headAt src, slice src 24 (headAt src).bodyLength.toNat⟩
      else none := by
  unfold decodeFlowToPacket
  by_cases hlen : len < sizeofPacketHead
  · rw [if_pos hlen, if_neg (by rintro ⟨h, _⟩; exact absurd hlen (Nat.not_lt.2 h))]
  · have h24 : 24 ≤ len := Nat.not_lt.1 hlen
    rw [if_neg hlen,
      writeFlowToHost_eq (T := UInt32) 0 (by simp; omega) hsrc]
    simp only [size_uint16, size_uint32, size_uint64, Option.bind_eq_bind,
      Option.bind_some, Nat.reduceAdd,
      writeFlowToHost_eq (T := UInt16) 4 (by simp; omega) hsrc,
      writeFlowToHost_eq (T := UInt16) 6 (by simp; omega) hsrc,
      writeFlowToHost_eq (T := UInt16) 8 (by simp; omega) hsrc,
      writeFlowToHost_eq (T := UInt16) 10 (by simp; omega) hsrc,
      writeFlowToHost_eq (T := UInt32) 12 (by simp; omega) hsrc,
      writeFlowToHost_eq (T := UInt64) 16 (by simp; omega) hsrc]
    change (if (headAt src).bodyLength.toNat + 24 > len then none else
      some (Packet.mk (headAt src) (slice src 24 (headAt src).bodyLength.toNat))) = _
    by_cases hbody : 24 + (headAt src).bodyLength.toNat ≤ len
    · rw [if_neg (by omega), if_pos ⟨h24, hbody⟩]
    · rw [if_pos (by omega), if_neg (by rintro ⟨_, h⟩; exact hbody h)]

/-- **Encoding in closed form**: the result does not depend on what the output
string held before. -/
theorem encodePacketToFlow_eq (p : Packet) (store : Bytes) :
    encodePacketToFlow p store = some (packetBytes p) := by
  unfold encodePacketToFlow encodePacketToFlowAt
  dsimp only
  have hgap : (resize 0 store (sizeofPacketHead + p.body.length)).length =
      24 + p.body.length := resize_length ..
  generalize resize 0 store (sizeofPacketHead + p.body.length) = gap at hgap
  rw [if_neg (by rw [hgap]; exact Nat.lt_irrefl _), hgap]
  change (writeHostToFlow p.head.magic ([] : Bytes).length ([] ++ gap) _ >>= _) = _
  simp (disch := (simp <;> omega)) only [writeHostToFlow_bind]
  rw [memmove_append]
  simp [packetBytes, headBytes, List.drop_of_length_le, hgap]

/-- What a flow that starts with a framed packet decodes to. -/
theorem decodeFlowToPacketView_packetBytes {p : Packet} (h : p.Framed) (t : Bytes) :
    decodeFlowToPacketView (packetBytes p ++ t) = some p := by
  have hhead : headAt (packetBytes p ++ t) = p.head := by
    rw [packetBytes, List.append_assoc]
    exact headAt_headBytes p.head _
  have hbody : slice (packetBytes p ++ t) 24 p.head.bodyLength.toNat = p.body := by
    rw [packetBytes, List.append_assoc, slice_append_right (headBytes_length _).symm,
      show p.head.bodyLength.toNat = p.body.length from h, List.take_left]
  have hlen : (packetBytes p ++ t).length = 24 + p.body.length + t.length := by
    simp
  rw [decodeFlowToPacketView, decodeFlowToPacket_eq (Nat.le_refl _), hhead, hbody,
    if_pos ⟨by omega, by rw [hlen, show _ = _ from h]; omega⟩]

/-- A decoded packet is framed, and is the front of the flow. -/
theorem decodeFlowToPacketView_sound {s : Bytes} {p : Packet}
    (h : decodeFlowToPacketView s = some p) :
    p.Framed ∧ p.head = headAt s ∧ 24 + p.head.bodyLength.toNat ≤ s.length ∧
      packetBytes p = s.take (24 + p.head.bodyLength.toNat) := by
  rw [decodeFlowToPacketView, decodeFlowToPacket_eq (Nat.le_refl _)] at h
  split at h
  · rename_i hlen
    obtain ⟨h24, hbody⟩ := hlen
    obtain rfl := Option.some.inj h
    refine ⟨(slice_length hbody).symm, rfl, hbody, ?_⟩
    rw [packetBytes, headBytes_headAt h24]
    exact (List.take_add ..).symm
  · cases h

theorem decodeFlowToPacketView_isSome_iff (s : Bytes) :
    (decodeFlowToPacketView s).isSome ↔
      24 ≤ s.length ∧ 24 + bytesNat (slice s 12 4) ≤ s.length := by
  rw [decodeFlowToPacketView, decodeFlowToPacket_eq (Nat.le_refl _), headAt_bodyLength]
  split
  · rename_i h
    simpa using h
  · rename_i h
    simpa using h

/-! ## Streams of packets -/

/-- Decode, drop `24 + body_length` bytes, and again: the packets found and
the bytes left when no whole packet is there. -/
def splitFlow (s : Bytes) : List Packet × Bytes :=
  match _h : decodeFlowToPacketView s with
  | none => ([], s)
  | some p =>
      let rest := splitFlow (s.drop (24 + p.head.bodyLength.toNat))
      (p :: rest.1, rest.2)
termination_by s.length
decreasing_by
  have hlen := (decodeFlowToPacketView_sound _h).2.2.1
  simp only [List.length_drop]
  omega

theorem splitFlow_cons {p : Packet} (h : p.Framed) (t : Bytes) :
    splitFlow (packetBytes p ++ t) = (p :: (splitFlow t).1, (splitFlow t).2) := by
  have hdrop : (packetBytes p ++ t).drop (24 + p.head.bodyLength.toNat) = t := by
    rw [show 24 + p.head.bodyLength.toNat = (packetBytes p).length by
      rw [packetBytes_length, show _ = _ from h], List.drop_left]
  rw [splitFlow]
  split
  · rename_i hnone
    simp [decodeFlowToPacketView_packetBytes h t] at hnone
  · rename_i q hsome
    rw [decodeFlowToPacketView_packetBytes h t] at hsome
    obtain rfl := Option.some.inj hsome
    rw [hdrop]

/-- A flow made of framed packets and an undecodable tail is split into them. -/
theorem splitFlow_flatten {ps : List Packet} (h : ∀ p ∈ ps, p.Framed) {t : Bytes}
    (ht : decodeFlowToPacketView t = none) :
    splitFlow ((ps.map packetBytes).flatten ++ t) = (ps, t) := by
  induction ps with
  | nil =>
      rw [splitFlow]
      split
      · rfl
      · rename_i q hsome
        simp [ht] at hsome
  | cons p ps ih =>
      have hp : p.Framed := h p (by simp)
      have hps : ∀ q ∈ ps, q.Framed := fun q hq => h q (by simp [hq])
      rw [List.map_cons, List.flatten_cons, List.append_assoc, splitFlow_cons hp,
        ih hps]

/-- **The wire format round-trips and delimits itself.** -/
theorem packetFlow_exact :
    (∀ (p : Packet) (store t : Bytes), p.Framed →
      encodePacketToFlow p store = some (packetBytes p) ∧
      (packetBytes p).length = 24 + p.body.length ∧
      decodeFlowToPacketView (packetBytes p ++ t) = some p) ∧
    (∀ s : Bytes, (decodeFlowToPacketView s).isSome ↔
      24 ≤ s.length ∧ 24 + bytesNat (slice s 12 4) ≤ s.length) ∧
    (∀ (s : Bytes) (p : Packet) (store : Bytes), decodeFlowToPacketView s = some p →
      encodePacketToFlow p store = some (s.take (24 + p.head.bodyLength.toNat))) ∧
    (∀ ps : List Packet, (∀ p ∈ ps, p.Framed) →
      splitFlow (ps.map packetBytes).flatten = (ps, [])) := by
  refine ⟨?_, decodeFlowToPacketView_isSome_iff, ?_, ?_⟩
  · intro p store t hp
    exact ⟨encodePacketToFlow_eq p store, packetBytes_length p,
      decodeFlowToPacketView_packetBytes hp t⟩
  · intro s p store hs
    rw [encodePacketToFlow_eq, (decodeFlowToPacketView_sound hs).2.2.2]
  · intro ps hps
    have := splitFlow_flatten hps (t := []) rfl
    simpa using this

end Codec

/-- A `GET` of the key `a` and its answer, on one stream. -/
theorem packetFlow_exact_stream :
    let _ : Host := ⟨false⟩
    let get : Packet := ⟨⟨kDefaultMagic, kDefaultVersion, kRequest, kGet, kOk, 5, 7⟩,
      [0, 0, 0, 1, 97]⟩
    let answer : Packet :=
      ⟨⟨kDefaultMagic, kDefaultVersion, kResponse, kGet, kNotFound, 0, 7⟩, []⟩
    encodePacketToFlow get [] = some [6, 22, 16, 39, 0, 1, 0, 1, 0, 3, 0, 0,
        0, 0, 0, 5, 0, 0, 0, 0, 0, 0, 0, 7, 0, 0, 0, 1, 97] ∧
      splitFlow (packetBytes get ++ packetBytes answer) = ([get, answer], []) := by
  intro _ get answer
  refine ⟨((packetFlow_exact).1 get [] [] (by decide)).1.trans (by decide), ?_⟩
  simpa using (packetFlow_exact).2.2.2 [get, answer] (by decide)

end Adachi.Kv
