import Adachi.Tool.AsyncLogging
import Mathlib.Data.List.Induction
import Mathlib.Data.Nat.Digits.Defs

/-!
# What a log record says

A `Logger` collects what is inserted into it up to `kLoggerbuffersize` bytes
(`src/logger.cpp`, `include/logger.h`).  A text is cut where the space ends; a number that
does not fit is left out whole, and the insertions after it go on where it would have
stood.  The newline of the destructor needs a byte of its own.

## Main results

* `record_clean_iff`: exactly when the record ends with a newline and says nothing but a
  prefix of what was inserted.
-/

namespace Adachi.Tool

open Adachi.Io

/-! ## Insertions -/

/-- What `std::to_chars` writes for an unsigned value. -/
def natText (n : Nat) : Bytes :=
  if n = 0 then [0x30] else (Nat.digits 10 n).reverse.map fun d => UInt8.ofNat (0x30 + d)

/-- What `std::to_chars` writes for an integer. -/
def intText : Int → Bytes
  | .ofNat n => natText n
  | .negSucc n => 0x2d :: natText (n + 1)

/-- The argument of an `operator<<`: a `std::string_view`, a `const char*` that may be
null, an integer of any type, a `bool`. -/
inductive Insertion where
  | view (msg : Bytes)
  | chars (msg : Option Bytes)
  | number (n : Int)
  | flag (b : Bool)

namespace Insertion

/-- The text in full. -/
def rendering : Insertion → Bytes
  | .view msg => msg
  | .chars none => ascii "(null)"
  | .chars (some msg) => msg
  | .number n => intText n
  | .flag b => if b then ascii "true" else ascii "false"

def renderings (xs : List Insertion) : Bytes := xs.flatMap rendering

end Insertion

namespace Logger

/-- The body of `operator<<` for each type -/
def insert (l : Logger) : Insertion → Logger
  | .view msg => l.write msg
  | .chars none => l.write (ascii "(null)")
  | .chars (some msg) => l.write msg
  | .number n => l.format (intText n)
  | .flag b => if b then l.write (ascii "true") else l.write (ascii "false")

def insertAll (l : Logger) (xs : List Insertion) : Logger := xs.foldl insert l

def empty : Logger := ⟨[], Nat.zero_le _⟩

/-- What the constructor inserts; `date` and `time` are `__DATE__` and `__TIME__`. -/
def header (level date time : Bytes) (file : Option Bytes) (line : Int)
    (func : Option Bytes) : List Insertion :=
  [.chars (ascii "["), .view level, .chars (ascii "]"),
    .chars (ascii "["), .chars date, .chars (ascii "]"),
    .chars (ascii "["), .chars time, .chars (ascii "]"),
    .chars (ascii "["), .chars file, .chars (ascii "]"),
    .chars (ascii "["), .number line, .chars (ascii "]"),
    .chars (ascii "["), .chars func, .chars (ascii "]")]

/-- `Logger(level, file, line, func, _)` -/
def new (level date time : Bytes) (file : Option Bytes) (line : Int)
    (func : Option Bytes) : Logger :=
  empty.insertAll (header level date time file line func)

end Logger

/-! ## Clean records -/

open Insertion

/-- At most the size of the buffer, a newline at the end, and before it a prefix of the
full text. -/
def CleanRecord (full record : Bytes) : Prop :=
  record.length ≤ kLoggerbuffersize ∧ ∃ body, record = body ++ [0x0a] ∧ body <+: full

/-- There is space for the newline, or the last byte that fits is one. -/
def Closes (full : Bytes) : Prop :=
  full.length < kLoggerbuffersize ∨ full[kLoggerbuffersize - 1]? = some 0x0a

/-- A number that needs more than the `room` that is left. -/
def Insertion.Skips (room : Nat) : Insertion → Prop
  | .number n => room < (intText n).length
  | _ => False

instance (room : Nat) : (x : Insertion) → Decidable (x.Skips room)
  | .number n => inferInstanceAs (Decidable (room < (intText n).length))
  | .view _ | .chars _ | .flag _ => inferInstanceAs (Decidable False)

/-- After `pre` there is space left, but not enough for the number `x`. -/
def LeftOut (pre : List Insertion) (x : Insertion) : Prop :=
  (renderings pre).length < kLoggerbuffersize ∧
    x.Skips (kLoggerbuffersize - (renderings pre).length)

/-- What goes into the last `room` bytes after a number was left out repeats the `digits` of
that number, up to a newline in the last byte. -/
def Repeats (digits : Bytes) (room : Nat) : List Insertion → Prop
  | [] => True
  | x :: xs =>
      if x.Skips room then Repeats digits room xs
      else if x.rendering.length < room then
        x.rendering <+: digits ∧
          Repeats (digits.drop x.rendering.length) (room - x.rendering.length) xs
      else x.rendering.take room = digits.take (room - 1) ++ [0x0a]

instance decidableRepeats : (digits : Bytes) → (room : Nat) → (xs : List Insertion) →
    Decidable (Repeats digits room xs)
  | _, _, [] => .isTrue trivial
  | digits, room, x :: xs =>
      let _ := decidableRepeats digits room xs
      let _ := decidableRepeats (digits.drop x.rendering.length) (room - x.rendering.length) xs
      inferInstanceAs (Decidable
        (if x.Skips room then Repeats digits room xs
        else if x.rendering.length < room then
          x.rendering <+: digits ∧
            Repeats (digits.drop x.rendering.length) (room - x.rendering.length) xs
        else x.rendering.take room = digits.take (room - 1) ++ [0x0a]))

/-- The condition on what is inserted. -/
def KeepsClean (xs : List Insertion) : Prop :=
  (∀ pre x post, xs = pre ++ x :: post → LeftOut pre x →
    Repeats x.rendering (kLoggerbuffersize - (renderings pre).length) post) ∧
  ((∀ pre x post, xs = pre ++ x :: post → ¬ LeftOut pre x) → Closes (renderings xs))

/-! ## Renderings -/

namespace Insertion

theorem renderings_append (xs ys : List Insertion) :
    renderings (xs ++ ys) = renderings xs ++ renderings ys := by
  simp [renderings]

theorem renderings_cons (x : Insertion) (xs : List Insertion) :
    renderings (x :: xs) = x.rendering ++ renderings xs := by
  simp [renderings]

/-- What is skipped is longer than the room there is. -/
theorem Skips.lt {x : Insertion} {room : Nat} (h : x.Skips room) : room < x.rendering.length := by
  cases x with
  | number n => exact h
  | view | chars | flag => exact h.elim

end Insertion

namespace Logger

variable {l : Logger} {x : Insertion}

/-! ## One insertion -/

theorem insert_skips (h : x.Skips l.lessSize) : (l.insert x).buf = l.buf := by
  cases x with
  | number n => exact if_neg (Nat.not_le.2 h)
  | view | chars | flag => exact h.elim

/-- Whatever is not skipped is cut where the space ends. -/
theorem insert_kept (h : ¬ x.Skips l.lessSize) :
    (l.insert x).buf = l.buf ++ x.rendering.take l.lessSize := by
  cases x with
  | view msg => rfl
  | chars msg =>
      cases msg with
      | none => rfl
      | some msg => rfl
  | number n =>
      have hle : (intText n).length ≤ l.lessSize := Nat.not_lt.1 h
      show (if (intText n).length ≤ l.lessSize then _ else _) = _
      rw [if_pos hle, show (Insertion.number n).rendering = intText n from rfl,
        List.take_of_length_le hle]
  | flag b =>
      cases b with
      | true => rfl
      | false => rfl

theorem length_add_lessSize (l : Logger) : l.buf.length + l.lessSize = kLoggerbuffersize := by
  have hfits := l.fits
  unfold lessSize
  omega

theorem insert_fits (h : x.rendering.length ≤ l.lessSize) :
    (l.insert x).buf = l.buf ++ x.rendering := by
  rw [insert_kept (fun hskips => by have hlt := hskips.lt; omega), List.take_of_length_le h]

/-- Nothing goes into a full buffer. -/
theorem insert_full (h : l.lessSize = 0) : (l.insert x).buf = l.buf := by
  by_cases hskips : x.Skips l.lessSize
  · exact insert_skips hskips
  · rw [insert_kept hskips, h, List.take_zero, List.append_nil]

theorem insertAll_full (h : l.lessSize = 0) (xs : List Insertion) :
    (l.insertAll xs).buf = l.buf := by
  induction xs generalizing l with
  | nil => rfl
  | cons x xs ih =>
      have hbuf : (l.insert x).buf = l.buf := insert_full h
      have hless : (l.insert x).lessSize = 0 := by
        unfold lessSize
        rw [hbuf]
        exact h
      exact (ih hless).trans hbuf

/-- The buffer only grows. -/
theorem buf_prefix_insertAll (l : Logger) (xs : List Insertion) :
    l.buf <+: (l.insertAll xs).buf := by
  induction xs generalizing l with
  | nil => exact List.prefix_rfl
  | cons x xs ih =>
      refine List.IsPrefix.trans ?_ (ih (l.insert x))
      by_cases hskips : x.Skips l.lessSize
      · exact ⟨[], by rw [List.append_nil, insert_skips hskips]⟩
      · rw [insert_kept hskips]
        exact List.prefix_append _ _

/-! ## The record -/

theorem record_of_room (h : 0 < l.lessSize) : l.record = l.buf ++ [0x0a] := if_pos h

theorem record_of_full (h : l.lessSize = 0) : l.record = l.buf := if_neg (by omega)

/-- A buffer with space left is clean as long as it holds a prefix. -/
theorem cleanRecord_of_room (h : 0 < l.lessSize) {full : Bytes} :
    CleanRecord full l.record ↔ l.buf <+: full := by
  constructor
  · rintro ⟨_, body, heq, hbody⟩
    rw [record_of_room h] at heq
    rw [(List.append_inj' heq rfl).1]
    exact hbody
  · exact fun hbuf => ⟨l.record_length, l.buf, record_of_room h, hbuf⟩

/-- Whatever a clean record has before its last byte is a prefix of the full text. -/
theorem prefix_of_cleanRecord {full start : Bytes} (h : CleanRecord full l.record)
    (hstart : start <+: l.buf) (hlt : start.length < kLoggerbuffersize) : start <+: full := by
  by_cases hroom : 0 < l.lessSize
  · exact hstart.trans ((cleanRecord_of_room hroom).1 h)
  · rcases h with ⟨_, body, heq, hbody⟩
    have hfull : l.lessSize = 0 := by omega
    have hlength := l.length_add_lessSize
    rw [record_of_full hfull] at heq
    rw [heq, List.length_append, List.length_singleton] at hlength
    rw [heq] at hstart
    exact (List.prefix_of_prefix_length_le hstart (List.prefix_append body [0x0a])
      (by omega)).trans hbody

/-- A full buffer is clean when its last byte is a newline and the bytes before it are those
that should be there. -/
theorem cleanRecord_of_full {start filling want : Bytes} (hbuf : l.buf = start ++ filling)
    (hlt : start.length < kLoggerbuffersize) (hfull : l.lessSize = 0) :
    CleanRecord (start ++ want) l.record ↔
      filling = want.take (filling.length - 1) ++ [0x0a] := by
  have hlength := l.length_add_lessSize
  rw [hbuf, List.length_append] at hlength
  rcases List.eq_nil_or_concat filling with hnil | ⟨front, last, hconcat⟩
  · rw [hnil, List.length_nil] at hlength
    omega
  · rw [List.concat_eq_append] at hconcat
    subst hconcat
    have hfront : (front ++ [last]).length - 1 = front.length := by simp
    rw [record_of_full hfull, hbuf, hfront, ← List.append_assoc]
    constructor
    · rintro ⟨_, body, heq, hbody⟩
      rcases List.append_inj' heq rfl with ⟨hfrontbody, hlast⟩
      rw [← hfrontbody, List.prefix_append_right_inj] at hbody
      rw [← List.prefix_iff_eq_take.1 hbody, hlast]
    · intro heq
      rcases List.append_inj' heq rfl with ⟨hfrontwant, hlast⟩
      refine ⟨?_, start ++ front, by rw [hlast], ?_⟩
      · rw [List.append_assoc, List.length_append]
        omega
      · rw [List.prefix_append_right_inj, hfrontwant]
        exact List.take_prefix _ _

/-- What comes after a full buffer does not matter. -/
theorem cleanRecord_insertAll_of_full {start filling want : Bytes}
    (hbuf : l.buf = start ++ filling) (hlt : start.length < kLoggerbuffersize)
    (hfull : l.lessSize = 0) {post : List Insertion} :
    CleanRecord (start ++ want) (l.insertAll post).record ↔
      filling = want.take (filling.length - 1) ++ [0x0a] := by
  have hpost := insertAll_full hfull post
  refine cleanRecord_of_full (hpost.trans hbuf) hlt ?_
  unfold lessSize
  rw [hpost]
  exact hfull

end Logger

/-! ## After a number was left out -/

/-- **What follows a number that was left out.**  The buffer is a prefix of the full text, and
the number's digits, more than there is space for, should come next. -/
theorem cleanRecord_iff_repeats {l : Logger} (post : List Insertion) (digits tail : Bytes)
    (hroom : 0 < l.lessSize) (hlong : l.lessSize < digits.length) :
    CleanRecord (l.buf ++ (digits ++ tail)) (l.insertAll post).record ↔
      Repeats digits l.lessSize post := by
  induction post generalizing l digits with
  | nil =>
      show CleanRecord _ l.record ↔ True
      rw [Logger.cleanRecord_of_room hroom, iff_true]
      exact List.prefix_append _ _
  | cons x post ih =>
      show CleanRecord _ ((l.insert x).insertAll post).record ↔ _
      have hlength := l.length_add_lessSize
      have hlength' := (l.insert x).length_add_lessSize
      unfold Repeats
      by_cases hskips : x.Skips l.lessSize
      · have hbuf : (l.insert x).buf = l.buf := Logger.insert_skips hskips
        have hless : (l.insert x).lessSize = l.lessSize := by
          rw [hbuf] at hlength'
          omega
        rw [if_pos hskips, ← hless, ← hbuf]
        exact ih digits (by omega) (by omega)
      · rw [if_neg hskips]
        by_cases hfits : x.rendering.length < l.lessSize
        · have hbuf : (l.insert x).buf = l.buf ++ x.rendering :=
            Logger.insert_fits (Nat.le_of_lt hfits)
          have hless : (l.insert x).lessSize = l.lessSize - x.rendering.length := by
            rw [hbuf, List.length_append] at hlength'
            omega
          rw [if_pos hfits]
          constructor
          · intro hclean
            have hfront : x.rendering <+: digits := by
              have hstart := Logger.prefix_of_cleanRecord hclean
                (Logger.buf_prefix_insertAll _ post) (by omega)
              rw [hbuf, List.prefix_append_right_inj] at hstart
              exact List.prefix_of_prefix_length_le hstart (List.prefix_append digits tail)
                (by omega)
            refine ⟨hfront, ?_⟩
            rcases hfront with ⟨rest, rfl⟩
            rw [List.drop_left, ← hless]
            rw [List.length_append] at hlong
            refine (ih rest (by omega) (by omega)).1 ?_
            rw [hbuf, List.append_assoc, ← List.append_assoc x.rendering]
            exact hclean
          · rintro ⟨⟨rest, rfl⟩, hrest⟩
            rw [List.drop_left, ← hless] at hrest
            rw [List.length_append] at hlong
            have hclean := (ih rest (by omega) (by omega)).2 hrest
            rw [hbuf, List.append_assoc, ← List.append_assoc x.rendering] at hclean
            exact hclean
        · have hbuf : (l.insert x).buf = l.buf ++ x.rendering.take l.lessSize :=
            Logger.insert_kept hskips
          have htake : (x.rendering.take l.lessSize).length = l.lessSize := by
            rw [List.length_take]
            omega
          have hfull : (l.insert x).lessSize = 0 := by
            rw [hbuf, List.length_append, htake] at hlength'
            omega
          rw [if_neg hfits, Logger.cleanRecord_insertAll_of_full hbuf (by omega) hfull, htake,
            List.take_append_of_le_length (by omega)]

/-! ## As long as nothing was left out -/

/-- The buffer then holds as much of the full text as it can. -/
theorem insertAll_take (xs : List Insertion)
    (hnone : ∀ pre x post, xs = pre ++ x :: post → ¬ LeftOut pre x) :
    (Logger.empty.insertAll xs).buf = (renderings xs).take kLoggerbuffersize := by
  induction xs using List.reverseRecOn with
  | nil => rfl
  | append_singleton xs x ih =>
      have hbuf := ih fun pre y post heq =>
        hnone pre y (post ++ [x]) (by rw [heq, List.append_assoc, List.cons_append])
      have hlength := (Logger.empty.insertAll xs).length_add_lessSize
      have hlast : ¬ LeftOut xs x := hnone xs x [] rfl
      have hinsert : Logger.empty.insertAll (xs ++ [x]) =
          (Logger.empty.insertAll xs).insert x := by
        unfold Logger.insertAll
        rw [List.foldl_append]
        rfl
      rw [hinsert, renderings_append, show renderings [x] = x.rendering from List.append_nil _,
        List.take_append]
      by_cases hfull : (Logger.empty.insertAll xs).lessSize = 0
      · rw [Logger.insert_full hfull, hbuf]
        rw [hbuf, List.length_take] at hlength
        rw [Nat.sub_eq_zero_of_le (by omega), List.take_zero, List.append_nil]
      · rw [hbuf, List.length_take] at hlength
        have hless : (Logger.empty.insertAll xs).lessSize =
            kLoggerbuffersize - (renderings xs).length := by omega
        have hskips : ¬ x.Skips (Logger.empty.insertAll xs).lessSize := by
          rw [hless]
          exact fun h => hlast ⟨by omega, h⟩
        rw [Logger.insert_kept hskips, hbuf, hless]

theorem take_succ_eq_concat_iff (full : Bytes) (n : Nat) (ch : UInt8) :
    full.take (n + 1) = full.take n ++ [ch] ↔ full[n]? = some ch := by
  rw [List.take_add_one, List.append_right_inj]
  cases full[n]? with
  | none => simp
  | some ch' => simp

/-- Then only the newline is in question. -/
theorem cleanRecord_iff_closes (xs : List Insertion)
    (hnone : ∀ pre x post, xs = pre ++ x :: post → ¬ LeftOut pre x) :
    CleanRecord (renderings xs) (Logger.empty.insertAll xs).record ↔ Closes (renderings xs) := by
  have hbuf := insertAll_take xs hnone
  have hlength := (Logger.empty.insertAll xs).length_add_lessSize
  rw [hbuf, List.length_take] at hlength
  unfold Closes
  by_cases hroom : 0 < (Logger.empty.insertAll xs).lessSize
  · rw [Logger.cleanRecord_of_room hroom, hbuf]
    exact ⟨fun _ => .inl (by omega), fun _ => List.take_prefix _ _⟩
  · have hlong : kLoggerbuffersize ≤ (renderings xs).length := by omega
    have hfilled : CleanRecord ([] ++ renderings xs) (Logger.empty.insertAll xs).record ↔ _ :=
      Logger.cleanRecord_of_full hbuf (by decide) (by omega)
    rw [List.nil_append, List.length_take, Nat.min_eq_left hlong] at hfilled
    rw [hfilled]
    refine (take_succ_eq_concat_iff (renderings xs) (kLoggerbuffersize - 1) 0x0a).trans ?_
    constructor
    · exact fun hlast => .inr hlast
    · exact fun h => h.resolve_left (by omega)

/-! ## The condition -/

/-- Where a number was left out, everything before it is in the buffer. -/
theorem LeftOut.before {pre : List Insertion} {x : Insertion} (h : LeftOut pre x) :
    (Logger.empty.insertAll pre).buf = renderings pre ∧
      (Logger.empty.insertAll pre).lessSize = kLoggerbuffersize - (renderings pre).length := by
  have hlength := (Logger.empty.insertAll pre).length_add_lessSize
  have hbuf : (Logger.empty.insertAll pre).buf = renderings pre := by
    rw [insertAll_take, List.take_of_length_le (Nat.le_of_lt h.1)]
    rintro start y rest rfl hleft
    have hlt := hleft.2.lt
    have htotal := h.1
    rw [renderings_append, renderings_cons, List.length_append, List.length_append] at htotal
    omega
  rw [hbuf] at hlength
  exact ⟨hbuf, by omega⟩

theorem cleanRecord_iff_of_leftOut {pre post : List Insertion} {x : Insertion}
    (h : LeftOut pre x) :
    CleanRecord (renderings (pre ++ x :: post))
        (Logger.empty.insertAll (pre ++ x :: post)).record ↔
      Repeats x.rendering (kLoggerbuffersize - (renderings pre).length) post := by
  rcases h.before with ⟨hbuf, hless⟩
  have hskips := h.2
  rw [← hless] at hskips ⊢
  have hx : ((Logger.empty.insertAll pre).insert x).buf = renderings pre :=
    (Logger.insert_skips hskips).trans hbuf
  have hx' : ((Logger.empty.insertAll pre).insert x).lessSize =
      (Logger.empty.insertAll pre).lessSize := by
    unfold Logger.lessSize
    rw [hx, hbuf]
  have hall : Logger.empty.insertAll (pre ++ x :: post) =
      ((Logger.empty.insertAll pre).insert x).insertAll post := List.foldl_append ..
  have hlt := hskips.lt
  have hroom := h.1
  rw [renderings_append, renderings_cons, hall, ← hx, ← hx']
  exact cleanRecord_iff_repeats post x.rendering (renderings post) (by omega) (by omega)

/-- **When a record is a clean truncation.**  For every constructor call and all insertions:
the record ends with a newline, within the size of the buffer, after a prefix of the full
text, if and only if

* where a number is left out while there is space, nothing that is inserted later and fits
  adds anything but that number's own digits, and
* where none is left out, the text is shorter than the buffer or has a newline as the last
  byte that fits. -/
theorem record_clean_iff (level date time : Bytes) (file : Option Bytes) (line : Int)
    (func : Option Bytes) (xs : List Insertion) :
    CleanRecord (renderings (Logger.header level date time file line func ++ xs))
        ((Logger.new level date time file line func).insertAll xs).record ↔
      KeepsClean (Logger.header level date time file line func ++ xs) := by
  have hall : (Logger.new level date time file line func).insertAll xs =
      Logger.empty.insertAll (Logger.header level date time file line func ++ xs) :=
    List.foldl_append.symm
  rw [hall]
  generalize Logger.header level date time file line func ++ xs = ys
  unfold KeepsClean
  by_cases hleft : ∃ pre x post, ys = pre ++ x :: post ∧ LeftOut pre x
  · rcases hleft with ⟨pre, x, post, rfl, hleft⟩
    rw [cleanRecord_iff_of_leftOut hleft]
    constructor
    · intro hrepeats
      constructor
      · intro pre' x' post' heq hleft'
        rw [← cleanRecord_iff_of_leftOut hleft', ← heq, cleanRecord_iff_of_leftOut hleft]
        exact hrepeats
      · exact fun hnone => absurd hleft (hnone pre x post rfl)
    · exact fun h => h.1 pre x post rfl hleft
  · have hnone : ∀ pre x post, ys = pre ++ x :: post → ¬ LeftOut pre x :=
      fun pre x post heq h => hleft ⟨pre, x, post, heq, h⟩
    rw [cleanRecord_iff_closes ys hnone]
    constructor
    · intro hcloses
      exact ⟨fun pre x post heq h => absurd h (hnone pre x post heq), fun _ => hcloses⟩
    · exact fun h => h.2 hnone

/-- A message that fills the buffer gets no newline; and after a number for which two bytes
are not enough, a shorter text is still inserted. -/
theorem record_not_clean :
    let level := ascii "INFO"
    let date := ascii "Jan  1 2026"
    let time := ascii "12:00:00"
    let file := some (ascii "main.cpp")
    let func := some (ascii "main")
    let long : List Insertion := [.view (List.replicate 4096 0x61)]
    let short : List Insertion :=
      [.view (List.replicate 4046 0x61), .number 123, .view (ascii "x")]
    ¬ CleanRecord (renderings (Logger.header level date time file 7 func ++ long))
        ((Logger.new level date time file 7 func).insertAll long).record ∧
      ¬ CleanRecord (renderings (Logger.header level date time file 7 func ++ short))
        ((Logger.new level date time file 7 func).insertAll short).record := by
  intro level date time file func long short
  let header := Logger.header level date time file 7 func
  have hall : ∀ xs, (Logger.new level date time file 7 func).insertAll xs =
      Logger.empty.insertAll (header ++ xs) := fun xs => List.foldl_append.symm
  rw [hall, hall]
  constructor
  · let l := Logger.empty.insertAll header
    let filling : Insertion := .view (List.replicate 4096 0x61)
    have hless : l.lessSize = 4048 := by decide
    have hkept : (l.insert filling).buf = l.buf ++ (List.replicate 4096 0x61).take l.lessSize :=
      Logger.insert_kept (fun h => h)
    rw [hless, List.take_replicate, show min 4048 4096 = 4047 + 1 from rfl,
      List.replicate_succ', ← List.append_assoc] at hkept
    have hlength := l.length_add_lessSize
    have hfull : (l.insert filling).lessSize = 0 := by
      unfold Logger.lessSize
      rw [hkept, List.length_append, List.length_append, List.length_replicate,
        List.length_singleton]
      omega
    rintro ⟨_, body, heq, _⟩
    have hrecord : (Logger.empty.insertAll (header ++ long)).record = (l.insert filling).record :=
      congrArg Logger.record List.foldl_append
    rw [hrecord, Logger.record_of_full hfull, hkept] at heq
    have hlast := (List.append_inj' heq rfl).2
    revert hlast
    decide
  · let filling : Insertion := .view (List.replicate 4046 0x61)
    have hheader : (renderings header).length = 48 := by decide
    have hfilled : (renderings (header ++ [filling])).length = 4094 := by
      rw [renderings_append, List.length_append, hheader,
        show renderings [filling] = List.replicate 4046 0x61 from List.append_nil _,
        List.length_replicate]
    have hleft : LeftOut (header ++ [filling]) (.number 123) := by
      unfold LeftOut
      rw [hfilled]
      decide
    have hrepeats := (cleanRecord_iff_of_leftOut hleft : _ ↔ Repeats _ _ [.view (ascii "x")])
    rw [List.append_assoc, hfilled] at hrepeats
    show ¬ CleanRecord (renderings (header ++ filling :: .number 123 :: [.view (ascii "x")])) _
    intro hclean
    have h := hrepeats.1 hclean
    revert h
    decide

end Adachi.Tool
