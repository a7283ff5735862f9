import Mathlib.Algebra.Group.Nat.Defs
import Mathlib.Data.List.Induction

/-!
# Byte order

Unsigned integers of a fixed number of bytes, their big-endian encoding, and
the object representation a host gives them in memory.

`natBytes w n` writes the low `8·w` bits of `n`, most significant byte first;
`bytesNat` reads a byte string of any length back.  On `w` bytes the two are
inverse to each other (`bytesNat_natBytes`, `natBytes_bytesNat`), and
everything else in the file is a consequence: `beBytes` and `ofBeBytes` are
the same two functions at an integer type, `hostBytes` and `hostLoad` are what
`memcpy` from and to an object of that type does on a given host.

## Main results

* `ofBeBytes_beBytes`, `beBytes_ofBeBytes`: the encoding is a bijection onto
  the byte strings of length `size`.
* `load_eq_bswap`, `store_bswap`: on a host of the other byte order, a byte
  swap after the load (before the store) gives exactly the big-endian value.
-/

namespace ByteOrder

/-! ## Naturals as big-endian byte strings -/

/-- The low `w` bytes of `n`, most significant first. -/
def natBytes : Nat → Nat → List UInt8
  | 0, _ => []
  | w + 1, n => natBytes w (n / 256) ++ [UInt8.ofNat n]

/-- The number a big-endian byte string denotes. -/
def bytesNat (bs : List UInt8) : Nat :=
  bs.foldl (fun acc b => acc * 256 + b.toNat) 0

@[simp] theorem natBytes_length (w n : Nat) : (natBytes w n).length = w := by
  induction w generalizing n with
  | zero => rfl
  | succ w ih => simp [natBytes, ih]

theorem bytesNat_concat (bs : List UInt8) (b : UInt8) :
    bytesNat (bs ++ [b]) = bytesNat bs * 256 + b.toNat := by
  simp [bytesNat]

theorem bytesNat_natBytes {w n : Nat} (h : n < 256 ^ w) :
    bytesNat (natBytes w n) = n := by
  induction w generalizing n with
  | zero =>
      simp only [Nat.pow_zero] at h
      simp only [natBytes, bytesNat, List.foldl_nil]
      omega
  | succ w ih =>
      have hq : n / 256 < 256 ^ w := by
        rw [Nat.pow_succ] at h
        omega
      rw [natBytes, bytesNat_concat, ih hq, UInt8.toNat_ofNat']
      omega

theorem bytesNat_lt (bs : List UInt8) : bytesNat bs < 256 ^ bs.length := by
  induction bs using List.reverseRecOn with
  | nil => simp [bytesNat]
  | append_singleton bs b ih =>
      have hb := b.toNat_lt
      rw [bytesNat_concat, List.length_append, List.length_singleton, Nat.pow_succ]
      omega

theorem natBytes_bytesNat (bs : List UInt8) :
    natBytes bs.length (bytesNat bs) = bs := by
  induction bs using List.reverseRecOn with
  | nil => rfl
  | append_singleton bs b ih =>
      have hb := b.toNat_lt
      have hdiv : (bytesNat bs * 256 + b.toNat) / 256 = bytesNat bs := by omega
      have hlow : UInt8.ofNat (bytesNat bs * 256 + b.toNat) = b := by
        apply UInt8.toNat_inj.mp
        rw [UInt8.toNat_ofNat']
        omega
      rw [List.length_append, List.length_singleton, natBytes, bytesNat_concat,
        hdiv, ih, hlow]

/-! ## Fixed-width integer types -/

/-- An unsigned integer type of `size` bytes. -/
class WireInt (T : Type) where
  /-- `sizeof(T)` -/
  size : Nat
  toNat : T → Nat
  /-- conversion modulo `256 ^ size` -/
  ofNat : Nat → T
  toNat_lt : ∀ x, toNat x < 256 ^ size
  ofNat_toNat : ∀ x, ofNat (toNat x) = x
  toNat_ofNat : ∀ n, n < 256 ^ size → toNat (ofNat n) = n

instance : WireInt UInt16 where
  size := 2
  toNat := UInt16.toNat
  ofNat := UInt16.ofNat
  toNat_lt x := x.toNat_lt
  ofNat_toNat x := UInt16.ofNat_toNat
  toNat_ofNat n h := by rw [UInt16.toNat_ofNat']; exact Nat.mod_eq_of_lt h

instance : WireInt UInt32 where
  size := 4
  toNat := UInt32.toNat
  ofNat := UInt32.ofNat
  toNat_lt x := x.toNat_lt
  ofNat_toNat x := UInt32.ofNat_toNat
  toNat_ofNat n h := by rw [UInt32.toNat_ofNat']; exact Nat.mod_eq_of_lt h

instance : WireInt UInt64 where
  size := 8
  toNat := UInt64.toNat
  ofNat := UInt64.ofNat
  toNat_lt x := x.toNat_lt
  ofNat_toNat x := UInt64.ofNat_toNat
  toNat_ofNat n h := by rw [UInt64.toNat_ofNat']; exact Nat.mod_eq_of_lt h

@[simp] theorem size_uint16 : WireInt.size UInt16 = 2 := rfl
@[simp] theorem size_uint32 : WireInt.size UInt32 = 4 := rfl
@[simp] theorem size_uint64 : WireInt.size UInt64 = 8 := rfl

variable {T : Type} [WireInt T]

/-- The big-endian bytes of `x`. -/
def beBytes (x : T) : List UInt8 := natBytes (WireInt.size T) (WireInt.toNat x)

/-- The integer whose big-endian bytes are `bs`. -/
def ofBeBytes (bs : List UInt8) : T := WireInt.ofNat (bytesNat bs)

@[simp] theorem beBytes_length (x : T) : (beBytes x).length = WireInt.size T :=
  natBytes_length _ _

@[simp] theorem ofBeBytes_beBytes (x : T) : ofBeBytes (beBytes x) = x := by
  rw [ofBeBytes, beBytes, bytesNat_natBytes (WireInt.toNat_lt x),
    WireInt.ofNat_toNat]

theorem beBytes_ofBeBytes {bs : List UInt8} (h : bs.length = WireInt.size T) :
    beBytes (ofBeBytes bs : T) = bs := by
  have hlt : bytesNat bs < 256 ^ WireInt.size T := h ▸ bytesNat_lt bs
  rw [beBytes, ofBeBytes, WireInt.toNat_ofNat _ hlt, ← h, natBytes_bytesNat]

/-- Reverse the bytes of `x` (`__builtin_bswap`). -/
def bswap (x : T) : T := ofBeBytes (beBytes x).reverse

/-! ## The host's own byte order -/

/-- The machine a program runs on, as far as integers in memory show it. -/
class Host where
  /-- the most significant byte has the lowest address -/
  bigEndian : Bool

variable [Host]

/-- The bytes an object of value `x` occupies in memory. -/
def hostBytes (x : T) : List UInt8 :=
  if Host.bigEndian then beBytes x else (beBytes x).reverse

/-- The value of an object whose memory holds `bs`. -/
def hostLoad (bs : List UInt8) : T :=
  if Host.bigEndian then ofBeBytes bs else ofBeBytes bs.reverse

/-- Loading and then swapping on a little-endian host reads big-endian. -/
theorem load_eq_bswap {bs : List UInt8} (h : bs.length = WireInt.size T) :
    (if Host.bigEndian then hostLoad bs else bswap (hostLoad bs) : T) =
      ofBeBytes bs := by
  cases hbig : Host.bigEndian with
  | true => simp [hostLoad, hbig]
  | false =>
      have hrev : bs.reverse.length = WireInt.size T := by simpa using h
      simp only [hostLoad, hbig, Bool.false_eq_true, if_false, bswap]
      rw [beBytes_ofBeBytes hrev, List.reverse_reverse]

/-- Swapping and then storing on a little-endian host writes big-endian. -/
theorem store_bswap (x : T) :
    hostBytes (if Host.bigEndian then x else bswap x) = beBytes x := by
  cases hbig : Host.bigEndian with
  | true => simp [hostBytes, hbig]
  | false =>
      have hrev : (beBytes x).reverse.length = WireInt.size T := by simp
      simp only [hostBytes, hbig, Bool.false_eq_true, if_false, bswap]
      rw [beBytes_ofBeBytes hrev, List.reverse_reverse]

end ByteOrder
