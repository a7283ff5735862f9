/-!
# Byte storage as a flat list

The C functions that move bytes about (`memmove`, `std::string::resize`,
`std::vector::resize`) act on a contiguous block of cells.  This module gives
them their meaning on `List α`, together with `slice`, the block of `len`
cells that starts at `off`.

Overlap needs no special case here: the source of a `memmove` is a list that
has been read before the destination changes, which is what the C function
promises for overlapping blocks.
-/

namespace Memory

variable {α : Type _}

/-- The `len` cells that start at offset `off`. -/
def slice (xs : List α) (off len : Nat) : List α := (xs.drop off).take len

/-- `memmove(dst + off, src, |src|)`: the cells from `off` on are overwritten
by `src`, every other cell keeps its value. -/
def memmove (dst : List α) (off : Nat) (src : List α) : List α :=
  dst.take off ++ src ++ dst.drop (off + src.length)

/-- `resize(n)`: cut the tail, or fill the new cells with `fill`. -/
def resize (fill : α) (xs : List α) (n : Nat) : List α :=
  xs.take n ++ List.replicate (n - xs.length) fill

/-! ## Slices -/

theorem slice_length {xs : List α} {off len : Nat}
    (h : off + len ≤ xs.length) : (slice xs off len).length = len := by
  simp only [slice, List.length_take, List.length_drop]
  omega

@[simp] theorem slice_zero (xs : List α) (off : Nat) : slice xs off 0 = [] := by
  simp [slice]

/-- Two adjacent slices are one slice. -/
theorem slice_append_slice (xs : List α) (off m n : Nat) :
    slice xs off m ++ slice xs (off + m) n = slice xs off (m + n) := by
  simp only [slice, ← List.drop_drop]
  exact (List.take_add ..).symm

theorem take_slice (xs : List α) (off : Nat) {n len : Nat} (h : n ≤ len) :
    (slice xs off len).take n = slice xs off n := by
  simp only [slice, List.take_take]
  rw [Nat.min_eq_left h]

theorem drop_slice (xs : List α) (off n len : Nat) :
    (slice xs off len).drop n = slice xs (off + n) (len - n) := by
  simp only [slice, List.drop_take, List.drop_drop]

/-- A slice that ends inside the front part does not see what is behind it. -/
theorem slice_append_left {xs ys : List α} {off len : Nat}
    (h : off + len ≤ xs.length) : slice (xs ++ ys) off len = slice xs off len := by
  simp only [slice]
  rw [List.drop_append_of_le_length (by omega),
    List.take_append_of_le_length (by simp; omega)]

/-- A slice that starts where the front part ends reads the part behind it. -/
theorem slice_append_right {xs ys : List α} {off len : Nat}
    (h : off = xs.length) : slice (xs ++ ys) off len = ys.take len := by
  subst h
  simp [slice]

/-! ## `memmove` -/

theorem memmove_length {dst : List α} {off : Nat} {src : List α}
    (h : off + src.length ≤ dst.length) :
    (memmove dst off src).length = dst.length := by
  simp only [memmove, List.length_append, List.length_take, List.length_drop]
  omega

/-- Writing right behind a finished front part extends that part. -/
theorem memmove_append (done gap src : List α) :
    memmove (done ++ gap) done.length src = done ++ src ++ gap.drop src.length := by
  simp [memmove]

/-- Reading back the cells that were just written. -/
theorem slice_memmove_self {dst : List α} {off : Nat} {src : List α}
    (h : off ≤ dst.length) : slice (memmove dst off src) off src.length = src := by
  have htake : (dst.take off).length = off := by simp [h]
  have hdrop : (dst.take off ++ (src ++ dst.drop (off + src.length))).drop off =
      src ++ dst.drop (off + src.length) := List.drop_left' htake
  simp only [slice, memmove, List.append_assoc, hdrop, List.take_left]

/-- Cells before the written block keep their value. -/
theorem slice_memmove_before {dst : List α} {off o len : Nat} {src : List α}
    (hoff : off ≤ dst.length) (h : o + len ≤ off) :
    slice (memmove dst off src) o len = slice dst o len := by
  have hcut : slice (dst.take off) o len = slice dst o len := by
    simp only [slice, List.drop_take, List.take_take]
    rw [Nat.min_eq_left (by omega)]
  rw [memmove, List.append_assoc, slice_append_left (by simp; omega), hcut]

/-- A block written where the live cells end makes the live cells longer. -/
theorem slice_memmove_extend {dst : List α} {lo hi : Nat} {src : List α}
    (hlo : lo ≤ hi) (hhi : hi ≤ dst.length) :
    slice (memmove dst hi src) lo (hi - lo + src.length) =
      slice dst lo (hi - lo) ++ src := by
  rw [← slice_append_slice, show lo + (hi - lo) = hi by omega,
    slice_memmove_before hhi (by omega), slice_memmove_self hhi]

/-! ## `resize` -/

@[simp] theorem resize_length (fill : α) (xs : List α) (n : Nat) :
    (resize fill xs n).length = n := by
  simp only [resize, List.length_append, List.length_take, List.length_replicate]
  omega

theorem resize_of_le {fill : α} {xs : List α} {n : Nat} (h : xs.length ≤ n) :
    resize fill xs n = xs ++ List.replicate (n - xs.length) fill := by
  rw [resize, List.take_of_length_le h]

/-- Growing the block leaves every old cell in place. -/
theorem slice_resize {fill : α} {xs : List α} {n off len : Nat}
    (hn : xs.length ≤ n) (h : off + len ≤ xs.length) :
    slice (resize fill xs n) off len = slice xs off len := by
  rw [resize_of_le hn, slice_append_left h]

/-- `resize` followed by a copy to the new cells is concatenation. -/
theorem memmove_resize (fill : α) (xs src : List α) :
    memmove (resize fill xs (xs.length + src.length)) xs.length src = xs ++ src := by
  rw [resize_of_le (by omega), memmove_append]
  simp

end Memory
