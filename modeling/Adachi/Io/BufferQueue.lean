import Adachi.Io.Buffer

/-!
# `Buffer` is a byte queue

The abstract content of a buffer is the list `unread` of the bytes between its
cursors.  `WF` is the cursor invariant `0 ≤ readptr ≤ writeptr ≤ size`, with
the upper bound the type `int` imposes; `Fits` adds that the storage itself is
shorter than `2 ^ 31` bytes, which is what a growing operation relies on.

Each operation has one specification lemma: it keeps the invariant and acts on
`unread` as the queue operation it stands for.  Nothing outside this file
unfolds the cursors again.
-/

namespace Adachi.Io

open Memory ByteOrder

/-! ## Conversions that change nothing -/

theorem toSize_of_nonneg {i : Int} (h0 : 0 ≤ i) (h : i < 2 ^ 64) :
    toSize i = i.toNat := by
  rw [toSize, Int.emod_eq_of_lt h0 h]

theorem toInt_of_lt {i : Int} (h0 : 0 ≤ i) (h : i < 2 ^ 31) : toInt i = i := by
  unfold toInt
  apply Int.bmod_eq_of_le <;> omega

theorem toUnsigned_of_lt {n : Nat} (h : n < 2 ^ 32) : toUnsigned n = n :=
  Nat.mod_eq_of_lt h

theorem addSize_of_lt {i : Int} {n : Nat} (h0 : 0 ≤ i) (hi : i < 2 ^ 31)
    (hn : n < 2 ^ 31) : addSize i n = i.toNat + n := by
  rw [addSize, toSize_of_nonneg h0 (by omega)]
  exact Nat.mod_eq_of_lt (by omega)

theorem addUnsigned_of_lt {i : Int} {n : Nat} (h0 : 0 ≤ i) (hi : i < 2 ^ 31)
    (hn : n < 2 ^ 31) : addUnsigned i n = i.toNat + n := by
  rw [addUnsigned, Int.emod_eq_of_lt (by omega) (by omega)]
  omega

theorem toInt_toInt (i : Int) : toInt (toInt i) = toInt i := Int.bmod_bmod ..

theorem toInt_eq_iff {i j : Int} (hj : toInt j = j) : toInt i = j ↔ (i - j) % 2 ^ 32 = 0 := by
  have hbmod : toInt i = toInt j ↔ (i - j) % 2 ^ 32 = 0 := by
    unfold toInt
    rw [Int.bmod_eq_bmod_iff_bmod_sub_eq_zero]
    exact (Int.dvd_iff_bmod_eq_zero ..).symm.trans (Int.dvd_iff_emod_eq_zero ..)
  rw [← hbmod, hj]

theorem toInt_of_ge {i : Int} (h0 : 2 ^ 31 ≤ i) (h : i < 2 ^ 32) : toInt i = i - 2 ^ 32 := by
  have hint : toInt (i - 2 ^ 32) = i - 2 ^ 32 := by
    unfold toInt
    apply Int.bmod_eq_of_le
    · omega
    · omega
  rw [toInt_eq_iff hint]
  omega

theorem addSize_emod (i : Int) (n : Nat) : (addSize i n : Int) % 2 ^ 32 = (i + n) % 2 ^ 32 := by
  unfold addSize toSize
  omega

namespace Buffer

/-! ## The invariant and the content -/

/-- The cursors lie in the storage, in order, and are values of type `int`. -/
structure WF (b : Buffer) : Prop where
  readptr_nonneg : 0 ≤ b.readptr
  readptr_le : b.readptr ≤ b.writeptr
  writeptr_le : b.writeptr ≤ b.buffer.length
  writeptr_lt : b.writeptr < 2 ^ 31

/-- A well-formed buffer whose whole storage an `int` can index. -/
structure Fits (b : Buffer) : Prop extends WF b where
  capacity_lt : b.buffer.length < 2 ^ 31

/-- The bytes written and not yet read. -/
def unread (b : Buffer) : Bytes :=
  slice b.buffer b.readptr.toNat (b.writeptr - b.readptr).toNat

theorem unread_length {b : Buffer} (h : b.WF) :
    b.unread.length = (b.writeptr - b.readptr).toNat := by
  have h1 := h.readptr_nonneg
  have h2 := h.readptr_le
  have h3 := h.writeptr_le
  exact slice_length (by omega)

theorem unread_length_lt {b : Buffer} (h : b.WF) : b.unread.length < 2 ^ 31 := by
  have h1 := h.readptr_nonneg
  have h2 := h.writeptr_lt
  rw [unread_length h]
  omega

theorem size_eq {b : Buffer} (h : b.WF) : b.size = b.unread.length := by
  have h1 := h.readptr_nonneg
  have h2 := h.readptr_le
  have h3 := h.writeptr_lt
  rw [size, toSize_of_nonneg (by omega) (by omega), unread_length h]

theorem cast_size {b : Buffer} (h : b.WF) : (b.size : Int) = b.writeptr - b.readptr := by
  have h2 := h.readptr_le
  rw [size_eq h, unread_length h]
  omega

theorem empty_iff {b : Buffer} (h : b.WF) : b.empty = true ↔ b.unread = [] := by
  have h1 := h.readptr_le
  rw [empty, beq_iff_eq, ← List.length_eq_zero_iff, unread_length h]
  omega

/-- What `CReadData()` points to starts with the unread bytes. -/
theorem cReadData_take {b : Buffer} (h : b.WF) :
    b.cReadData.take b.unread.length = b.unread := by
  rw [unread_length h]
  rfl

theorem length_cReadData {b : Buffer} (h : b.WF) :
    b.unread.length ≤ b.cReadData.length := by
  have h1 := h.readptr_nonneg
  have h2 := h.readptr_le
  have h3 := h.writeptr_le
  rw [unread_length h, cReadData, List.length_drop]
  omega

/-! ## Storage changes -/

/-- A larger storage holds the same content. -/
theorem resizeTo_spec {b : Buffer} (h : b.WF) {n : Nat} (hn : b.buffer.length ≤ n) :
    (b.resizeTo n).WF ∧ (b.resizeTo n).unread = b.unread ∧
      (b.resizeTo n).buffer.length = n := by
  have h1 := h.readptr_nonneg
  have h2 := h.readptr_le
  have h3 := h.writeptr_le
  have hlen : (b.resizeTo n).buffer.length = n := resize_length ..
  refine ⟨⟨h1, h2, ?_, h.writeptr_lt⟩, ?_, hlen⟩
  · rw [resizeTo_writeptr, hlen]
    omega
  · rw [unread, resizeTo_readptr, resizeTo_writeptr]
    exact slice_resize hn (by omega)

/-- Storing at the write cursor, within the storage, appends to the content. -/
theorem copyIn_spec {b : Buffer} (h : b.WF) (data : Bytes)
    (hroom : b.writeptr + data.length ≤ b.buffer.length)
    (hint : b.writeptr + data.length < 2 ^ 31) {w : Int}
    (hw : w = b.writeptr + data.length) :
    (b.copyIn data w).WF ∧ (b.copyIn data w).unread = b.unread ++ data ∧
      (b.copyIn data w).buffer.length = b.buffer.length := by
  have h1 := h.readptr_nonneg
  have h2 := h.readptr_le
  have hlen : (b.copyIn data w).buffer.length = b.buffer.length :=
    memmove_length (by omega)
  subst hw
  refine ⟨⟨h1, ?_, ?_, hint⟩, ?_, hlen⟩
  · rw [copyIn_readptr, copyIn_writeptr]
    omega
  · rw [hlen]
    exact hroom
  · rw [unread, copyIn_readptr, copyIn_writeptr, show (b.writeptr + data.length - b.readptr).toNat =
      b.writeptr.toNat - b.readptr.toNat + data.length by omega, unread,
      show (b.writeptr - b.readptr).toNat =
        b.writeptr.toNat - b.readptr.toNat by omega]
    exact slice_memmove_extend (by omega) (by omega)

theorem movePtr_writeptr (b : Buffer) : b.movePtr.writeptr = b.writeptr - b.readptr := by
  by_cases h : b.readptr ≠ 0
  · rw [movePtr, if_pos h]
  · rw [movePtr, if_neg h, not_not.1 h, Int.sub_zero]

/-- `MovePtr` brings the unread bytes to the front of the same storage. -/
theorem movePtr_spec {b : Buffer} (h : b.WF) :
    b.movePtr.WF ∧ b.movePtr.unread = b.unread ∧ b.movePtr.readptr = 0 ∧
      b.movePtr.buffer.length = b.buffer.length := by
  have h1 := h.readptr_nonneg
  have h2 := h.readptr_le
  have h3 := h.writeptr_le
  have h4 := h.writeptr_lt
  have hlen := unread_length h
  unfold movePtr
  split
  · have hsize : (memmove b.buffer 0 b.unread).length = b.buffer.length :=
      memmove_length (by omega)
    refine ⟨⟨Int.le_refl 0, Int.sub_nonneg.2 h2, ?_, ?_⟩, ?_, rfl, hsize⟩
    · change b.writeptr - b.readptr ≤ ((memmove b.buffer 0 b.unread).length : Nat)
      omega
    · change b.writeptr - b.readptr < 2 ^ 31
      omega
    · change slice (memmove b.buffer 0 b.unread) 0
        (b.writeptr - b.readptr - 0).toNat = b.unread
      rw [Int.sub_zero, ← hlen]
      exact slice_memmove_self (Nat.zero_le _)
  · rename_i hr
    exact ⟨h, rfl, by simpa using hr, rfl⟩

/-! ## One specification lemma per operation -/

theorem new_fits {n : Nat} (h : n < 2 ^ 31) : (new n).Fits where
  readptr_nonneg := Int.le_refl 0
  readptr_le := Int.le_refl 0
  writeptr_le := Int.natCast_nonneg _
  writeptr_lt := Int.pow_pos (by decide)
  capacity_lt := by simpa [new, resizeTo] using h

@[simp] theorem unread_new (n : Nat) : (new n).unread = [] := by
  simp [new, resizeTo, unread]

/-- `Expand` changes the storage, not the content. -/
theorem expand_spec {b : Buffer} (h : b.WF) (n : Nat) :
    (b.expand n).WF ∧ (b.expand n).unread = b.unread ∧ (b.expand n).readptr = 0 ∧
      (b.expand n).buffer.length = max b.buffer.length n := by
  obtain ⟨hwf, hunread, hzero, hlen⟩ := movePtr_spec h
  unfold expand
  dsimp only
  split
  · obtain ⟨gwf, gunread, glen⟩ := resizeTo_spec hwf (n := n) (by omega)
    exact ⟨gwf, gunread.trans hunread, hzero, by omega⟩
  · exact ⟨hwf, hunread, hzero, by omega⟩

/-- Storing in a buffer that has room for the data. -/
private theorem copyIn_add {add : Int → Nat → Nat} {b : Buffer} (h : b.WF)
    (data : Bytes) (hadd : add b.writeptr data.length = b.writeptr.toNat + data.length)
    (hroom : add b.writeptr data.length ≤ b.buffer.length)
    (hcap : b.buffer.length < 2 ^ 31) :
    (b.copyIn data (toInt (add b.writeptr data.length))).Fits ∧
      (b.copyIn data (toInt (add b.writeptr data.length))).unread = b.unread ++ data := by
  have h1 := h.readptr_nonneg
  have h2 := h.readptr_le
  have hw : toInt (add b.writeptr data.length) = b.writeptr + data.length := by
    rw [toInt_of_lt (by omega) (by omega)]
    omega
  obtain ⟨cwf, cunread, clen⟩ := copyIn_spec h data (by omega) (by omega) hw
  exact ⟨⟨cwf, by omega⟩, cunread⟩

/-- Both `WriteBuffer` overloads append, whatever type they add in. -/
private theorem writeBytes_spec {add : Int → Nat → Nat}
    (hadd : ∀ (i : Int) (n : Nat), 0 ≤ i → i < 2 ^ 31 → n < 2 ^ 31 →
      add i n = i.toNat + n)
    {b : Buffer} (h : b.Fits) {message : Bytes}
    (hpending : b.unread.length + message.length < 2 ^ 31) :
    (writeBytes add b message).Fits ∧
      (writeBytes add b message).unread = b.unread ++ message := by
  obtain ⟨hwf, hcap⟩ := h
  have h1 := hwf.readptr_nonneg
  have h2 := hwf.readptr_le
  have hsum := hadd b.writeptr message.length (by omega) hwf.writeptr_lt (by omega)
  unfold writeBytes
  dsimp only
  by_cases hfull : add b.writeptr message.length > b.buffer.length
  · rw [if_pos hfull]
    obtain ⟨mwf, munread, mzero, mlen⟩ := movePtr_spec hwf
    have mlength := unread_length mwf
    have m2 := mwf.readptr_le
    have msum := hadd b.movePtr.writeptr message.length (by omega) mwf.writeptr_lt
      (by omega)
    rw [munread] at mlength
    by_cases hgrow : add b.movePtr.writeptr message.length > b.movePtr.buffer.length
    · rw [if_pos hgrow]
      obtain ⟨gwf, gunread, glen⟩ := resizeTo_spec mwf (Nat.le_of_lt hgrow)
      obtain ⟨cfits, cunread⟩ := copyIn_add gwf message msum
        (Nat.le_of_eq glen.symm) (by omega)
      exact ⟨cfits, by rw [← munread, ← gunread]; exact cunread⟩
    · rw [if_neg hgrow]
      obtain ⟨cfits, cunread⟩ := copyIn_add mwf message msum (by omega) (by omega)
      exact ⟨cfits, by rw [← munread]; exact cunread⟩
  · rw [if_neg hfull]
    exact copyIn_add hwf message hsum (by omega) hcap

/-- `WriteBuffer(const std::string&)` appends the message. -/
theorem writeBuffer_spec {b : Buffer} (h : b.Fits) {message : Bytes}
    (hpending : b.unread.length + message.length < 2 ^ 31) :
    (b.writeBuffer message).Fits ∧
      (b.writeBuffer message).unread = b.unread ++ message := by
  exact writeBytes_spec (fun _ _ => addSize_of_lt) h hpending

/-- `WriteBuffer(const char*, unsigned int)` appends the first `len` bytes. -/
theorem writeBufferLen_spec {b : Buffer} (h : b.Fits) {message : Bytes}
    (hpending : b.unread.length + message.length < 2 ^ 31) :
    (b.writeBufferLen message message.length).Fits ∧
      (b.writeBufferLen message message.length).unread = b.unread ++ message := by
  rw [writeBufferLen, toUnsigned_of_lt (by omega), List.take_length]
  exact writeBytes_spec (fun _ _ => addUnsigned_of_lt) h hpending

/-- `ReadBuffer(message, len)` takes the first `len` bytes of the content and
throws exactly when there are fewer. -/
theorem readBufferLen_spec {b : Buffer} (h : b.WF) {len : Nat}
    (hlen : len ≤ b.unread.length) :
    ∃ b', b.readBufferLen len = some (b.unread.take len, b') ∧ b'.WF ∧
      b'.unread = b.unread.drop len ∧ b'.buffer = b.buffer := by
  have h1 := h.readptr_nonneg
  have h2 := h.readptr_le
  have h3 := h.writeptr_le
  have h4 := h.writeptr_lt
  have hul := unread_length h
  have htake : slice b.buffer b.readptr.toNat len = b.unread.take len :=
    (take_slice _ _ (by omega)).symm
  unfold readBufferLen
  rw [size_eq h, if_neg (by omega), htake]
  dsimp only
  by_cases hall : b.unread.length = len
  · rw [if_pos hall]
    refine ⟨_, rfl, ⟨Int.le_refl 0, Int.le_refl 0, ?_, Int.pow_pos (by decide)⟩, ?_, rfl⟩
    · exact Int.natCast_nonneg _
    · rw [List.drop_of_length_le (by omega)]
      exact slice_zero ..
  · rw [if_neg hall, toInt_of_lt (by omega) (by omega)]
    refine ⟨_, rfl, ⟨?_, ?_, h3, h4⟩, ?_, rfl⟩
    · change 0 ≤ b.readptr + len
      omega
    · change b.readptr + len ≤ b.writeptr
      omega
    · rw [unread, unread, drop_slice]
      change slice _ (b.readptr + len).toNat (b.writeptr - (b.readptr + len)).toNat = _
      congr 1 <;> omega

/-- `PeekUnsignedInt` reads the first four bytes of the content. -/
theorem peekUnsignedInt_spec [Host] {b : Buffer} (h : b.WF) (hlen : 4 ≤ b.unread.length) :
    b.peekUnsignedInt = some (hostLoad (b.unread.take 4)) := by
  have hul := unread_length h
  have htake : slice b.buffer b.readptr.toNat 4 = b.unread.take 4 :=
    (take_slice _ _ (by omega)).symm
  unfold peekUnsignedInt
  rw [size_eq h, size_uint32, if_neg (by omega), htake]

theorem readBufferLen_eq_none_iff {b : Buffer} (h : b.WF) (len : Nat) :
    b.readBufferLen len = none ↔ b.unread.length < len := by
  constructor
  · intro hnone
    apply Nat.lt_of_not_le
    intro hle
    obtain ⟨b', hsome, _⟩ := readBufferLen_spec h hle
    simp [hsome] at hnone
  · intro hlt
    rw [readBufferLen, size_eq h, if_pos hlt]

/-- `ReadFd`, once the free tail is full and the content moved to the front:
what `readv` put in the side array is appended, after growing if need be. -/
private theorem append_extrabuf {m : Buffer} (h : m.WF) (hzero : m.readptr = 0)
    (hcap : m.buffer.length < 2 ^ 31) (extrabuf : Bytes) {need : Nat}
    (hneed : extrabuf.length = need)
    (hroom : m.unread.length + need < 2 ^ 31) :
    let g := if addSize m.writeptr need > m.buffer.length then
      m.expand (toUnsigned (addSize m.writeptr need)) else m
    (g.copyIn extrabuf (toInt (addSize g.writeptr need))).Fits ∧
      (g.copyIn extrabuf (toInt (addSize g.writeptr need))).unread =
        m.unread ++ extrabuf := by
  subst hneed
  have hlen := unread_length h
  have h2 := h.readptr_le
  have hsum := addSize_of_lt (i := m.writeptr) (n := extrabuf.length) (by omega)
    h.writeptr_lt (by omega)
  dsimp only
  by_cases hgrow : addSize m.writeptr extrabuf.length > m.buffer.length
  · rw [if_pos hgrow, toUnsigned_of_lt (by omega)]
    obtain ⟨ewf, eunread, ezero, elen⟩ :=
      expand_spec h (addSize m.writeptr extrabuf.length)
    have eulen := unread_length ewf
    rw [eunread] at eulen
    have e2 := ewf.readptr_le
    have esum := addSize_of_lt (n := extrabuf.length) (by omega) ewf.writeptr_lt
      (by omega)
    rw [← eunread]
    exact copyIn_add ewf extrabuf esum (by omega) (by omega)
  · rw [if_neg hgrow]
    exact copyIn_add h extrabuf hsum (by omega) hcap

/-- `ReadFd` appends what `readv` delivered. -/
theorem readFd_spec {b : Buffer} (h : b.Fits) {data : Bytes}
    (hroom : b.unread.length + data.length < 2 ^ 31) :
    (b.readFd (.ok data)).1 = .ok data.length ∧ (b.readFd (.ok data)).2.Fits ∧
      (b.readFd (.ok data)).2.unread = b.unread ++ data := by
  obtain ⟨hwf, hcap⟩ := h
  have h1 := hwf.readptr_nonneg
  have h2 := hwf.readptr_le
  have h3 := hwf.writeptr_le
  have h4 := hwf.writeptr_lt
  have hiov : (b.buffer.length + (2 ^ 64 - toSize b.writeptr)) % 2 ^ 64 =
      b.buffer.length - b.writeptr.toNat := by
    rw [toSize_of_nonneg (by omega) (by omega)]
    omega
  cases hdata : data with
  | nil => exact ⟨rfl, ⟨hwf, hcap⟩, by simp [readFd]⟩
  | cons x xs =>
      simp only [readFd, ← hdata]
      rw [hiov]
      generalize hiovLen : b.buffer.length - b.writeptr.toNat = iovLen
      by_cases hfull : data.length ≥ iovLen
      · rw [if_pos hfull]
        have htake : (data.take iovLen).length = iovLen := by
          rw [List.length_take]
          omega
        obtain ⟨swf, sunread, slen⟩ := copyIn_spec hwf (data.take iovLen)
          (w := toInt b.buffer.length) (by omega) (by omega)
          (by rw [toInt_of_lt (by omega) (by omega)]; omega)
        obtain ⟨mwf, munread, mzero, mlen⟩ := movePtr_spec swf
        rw [sunread] at munread
        obtain ⟨cfits, cunread⟩ := append_extrabuf mwf mzero (by omega)
          (data.drop iovLen) List.length_drop
          (by rw [munread, List.length_append]; omega)
        refine ⟨rfl, cfits, ?_⟩
        rw [cunread, munread, List.append_assoc, List.take_append_drop]
      · rw [if_neg hfull]
        obtain ⟨cwf, cunread, clen⟩ := copyIn_spec hwf data
          (w := toInt (b.writeptr + data.length)) (by omega) (by omega)
          (toInt_of_lt (by omega) (by omega))
        exact ⟨rfl, ⟨cwf, by dsimp only; omega⟩, cunread⟩

/-- `WriteFd` removes what `write` accepted from the front of the content. -/
theorem writeFd_spec {b : Buffer} (h : b.WF) {n : Nat} (hn : n ≤ b.unread.length) :
    (b.writeFd (.ok n)).1 = .ok n ∧ (b.writeFd (.ok n)).2.WF ∧
      (b.writeFd (.ok n)).2.unread = b.unread.drop n ∧
      (b.writeFd (.ok n)).2.buffer = b.buffer := by
  have h1 := h.readptr_nonneg
  have h2 := h.readptr_le
  have h3 := h.writeptr_le
  have h4 := h.writeptr_lt
  have hlen := unread_length h
  simp only [writeFd]
  rw [toInt_of_lt (by omega) (by omega)]
  refine ⟨trivial, ?_⟩
  by_cases hall : b.readptr + n = b.writeptr
  · rw [if_pos hall]
    refine ⟨⟨Int.le_refl 0, Int.le_refl 0, ?_, Int.pow_pos (by decide)⟩, ?_, rfl⟩
    · exact Int.natCast_nonneg _
    · rw [List.drop_of_length_le (by omega)]
      exact slice_zero ..
  · rw [if_neg hall]
    refine ⟨⟨?_, ?_, h3, h4⟩, ?_, rfl⟩
    · change 0 ≤ b.readptr + n
      omega
    · change b.readptr + n ≤ b.writeptr
      omega
    · rw [unread, unread, drop_slice]
      change slice _ (b.readptr + n).toNat (b.writeptr - (b.readptr + n)).toNat = _
      congr 1 <;> omega

/-! ## Cursors that wrap -/

/-- The read cursor is a value of type `int`. -/
def IntReadptr (b : Buffer) : Prop := toInt b.readptr = b.readptr

/-- With `len` more bytes, the cursors, which count modulo `2 ^ 32`, coincide. -/
def Wraps (b : Buffer) (len : Nat) : Prop := (b.writeptr - b.readptr + len) % 2 ^ 32 = 0

instance (b : Buffer) (len : Nat) : Decidable (b.Wraps len) := by
  unfold Wraps
  infer_instance

theorem intReadptr_new (size : Nat) : (new size).IntReadptr := rfl

theorem intReadptr_movePtr {b : Buffer} (h : b.IntReadptr) : b.movePtr.IntReadptr := by
  unfold movePtr
  split
  · exact rfl
  · exact h

theorem movePtr_sub (b : Buffer) :
    b.movePtr.writeptr - b.movePtr.readptr = b.writeptr - b.readptr := by
  unfold movePtr
  split
  · exact Int.sub_zero _
  · rfl

/-- Neither `WriteBuffer` moves the read cursor but to the front, and the write cursor
keeps its distance up to the bytes added. -/
theorem writeBytes_cursors {b : Buffer} (h : b.IntReadptr) (add : Int → Nat → Nat)
    (message : Bytes) :
    ∃ b' : Buffer, b'.IntReadptr ∧ b'.writeptr - b'.readptr = b.writeptr - b.readptr ∧
      (writeBytes add b message).readptr = b'.readptr ∧
      (writeBytes add b message).writeptr = toInt (add b'.writeptr message.length) := by
  unfold writeBytes
  dsimp only
  split
  · refine ⟨b.movePtr, intReadptr_movePtr h, movePtr_sub b, ?_⟩
    split
    · exact ⟨copyIn_readptr .., copyIn_writeptr ..⟩
    · exact ⟨copyIn_readptr .., copyIn_writeptr ..⟩
  · exact ⟨b, h, rfl, copyIn_readptr .., copyIn_writeptr ..⟩

theorem intReadptr_writeBytes {b : Buffer} (h : b.IntReadptr) (add : Int → Nat → Nat)
    (message : Bytes) : (writeBytes add b message).IntReadptr := by
  obtain ⟨b', hb', _, hreadptr, _⟩ := writeBytes_cursors h add message
  rw [IntReadptr, hreadptr]
  exact hb'

theorem intReadptr_writeFd (b : Buffer) (n : Nat) : (b.writeFd (.ok n)).2.IntReadptr := by
  simp only [writeFd]
  split
  · rfl
  · exact toInt_toInt _

/-- Nothing is written from an empty buffer, and it stays empty. -/
theorem empty_writeFd {b : Buffer} (h : b.IntReadptr) (hempty : b.empty = true) {n : Nat}
    (hn : n ≤ b.size) : (b.writeFd (.ok n)).2.empty = true := by
  have hcursors : b.readptr = b.writeptr := by rwa [empty, beq_iff_eq] at hempty
  rw [size, hcursors, Int.sub_self] at hn
  have hzero : n = 0 := Nat.le_zero.1 hn
  subst hzero
  simp only [writeFd]
  rw [Int.natCast_zero, Int.add_zero, h, if_pos hcursors]
  rfl

/-- `WriteBuffer` leaves the buffer empty exactly when the cursors wrap. -/
theorem empty_writeBuffer_iff {b : Buffer} (h : b.IntReadptr) (message : Bytes) :
    (b.writeBuffer message).empty = true ↔ b.Wraps message.length := by
  obtain ⟨b', hb', hsub, hreadptr, hwriteptr⟩ := writeBytes_cursors h addSize message
  have hadd := addSize_emod b'.writeptr message.length
  unfold writeBuffer empty Wraps
  rw [hreadptr, hwriteptr, beq_iff_eq, eq_comm, toInt_eq_iff hb', ← hsub]
  omega

end Buffer

end Adachi.Io
