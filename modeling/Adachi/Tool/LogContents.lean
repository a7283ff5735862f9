import Adachi.Tool.AsyncLogging

/-!
# No log record is lost, doubled or reordered

A record is copied to the end of the current buffer, and from then on its buffer only moves:
to the end of `work_list_`, with all of it to the backend thread or to the destructor, and
from there to the end of the file.  `content` reads the places from the file to the current
buffer, and no step except the copy changes it.

## Main results

* `records_in_order`: in every run, `content` is the concatenation of the records accepted,
  a record is dropped only after `running_` is cleared or when there is no room, and every
  copy stays inside a buffer that is there.
-/

namespace Adachi.Tool

open Adachi.Io

theorem PendingBuffer.content_zero (data : Option Block) : content ⟨data, 0⟩ = [] := by
  cases data with
  | none => rfl
  | some block => rfl

theorem Destructor.hasJoined_of_hasTaken {d : Destructor} (h : d.hasTaken = true) :
    d.hasJoined = true := by
  cases d with
  | flushing | finished => rfl
  | no | joining | joined => cases h

namespace AsyncLogging

variable {τ : Type} {s s' : AsyncLogging τ} {record : Bytes}

/-! ## What a step leaves alone -/

theorem refill_eq (s : AsyncLogging τ) :
    s.refill =
      { s with
        currentBuffer := s.refill.currentBuffer
        nextBuffer := s.refill.nextBuffer
        emptyBuffers := s.refill.emptyBuffers } := by
  unfold refill takeBufferLocked
  split
  · rfl
  · split
    · rfl
    · rfl

theorem refill_ne_none (s : AsyncLogging τ) : s.refill.currentBuffer ≠ none := by
  unfold refill
  split
  · exact Option.some_ne_none _
  · exact Option.some_ne_none _

theorem fillNext_eq (s : AsyncLogging τ) :
    s.fillNext =
      { s with
        nextBuffer := s.fillNext.nextBuffer
        emptyBuffers := s.fillNext.emptyBuffers } := by
  unfold fillNext takeBufferLocked
  split
  · rfl
  · split
    · rfl
    · rfl

theorem rotate_eq (s : AsyncLogging τ) :
    s.rotate =
      { s with
        workList := s.workList ++ [⟨s.currentBuffer, s.currentBufferLen⟩]
        currentBuffer := s.rotate.currentBuffer
        currentBufferLen := 0
        nextBuffer := s.rotate.nextBuffer
        emptyBuffers := s.rotate.emptyBuffers } := by
  unfold rotate
  exact refill_eq _

theorem foldl_recycle_eq (s : AsyncLogging τ) (buffers : List Block) :
    buffers.foldl recycleBufferLocked s =
      { s with emptyBuffers := (buffers.foldl recycleBufferLocked s).emptyBuffers } := by
  induction buffers generalizing s with
  | nil => rfl
  | cons buffer rest ih =>
      rw [List.foldl_cons, ih]
      unfold recycleBufferLocked
      split
      · rfl
      · rfl

theorem fwrite_eq (s : AsyncLogging τ) (p : PendingBuffer) :
    s.fwrite p =
      { s with
        file := (s.fwrite p).file
        fault := (s.fwrite p).fault } := by
  unfold fwrite
  split
  · split
    · rfl
    · rfl
  · split
    · rfl
    · rfl

/-- `reusable_buffers` go back to the free list, and the next buffer is filled. -/
theorem recycle_eq (s : AsyncLogging τ) :
    s.recycle =
      { s with
        backend := .waiting
        written := []
        nextBuffer := s.recycle.nextBuffer
        emptyBuffers := s.recycle.emptyBuffers } := by
  unfold recycle
  dsimp only
  rw [fillNext_eq, foldl_recycle_eq]

/-! ## The content -/

/-- The buffers on their way to the file, from the oldest to the newest. -/
def pending (s : AsyncLogging τ) : List PendingBuffer :=
  s.tempWorkList ++ (s.remaining ++ s.workList)

/-- The file, the unwritten part of `temp_work_list` (or of what the destructor has taken),
`work_list_`, and the current buffer up to `current_buffer_len_`. -/
def content (s : AsyncLogging τ) : Bytes :=
  s.file ++ (s.pending.flatMap PendingBuffer.content ++
    PendingBuffer.content ⟨s.currentBuffer, s.currentBufferLen⟩)

/-- **The buffers hold the records accepted.** -/
structure Kept (s : AsyncLogging τ) : Prop where
  len : s.currentBufferLen ≤ kBackendbuffersize
  current : s.destructor.hasTaken = false → s.currentBuffer ≠ none
  pending : ∀ p ∈ s.pending, p.Ok
  content : s.content = s.accepted.flatten
  fault : s.fault = false

theorem kept_new : (new : AsyncLogging τ).Kept where
  len := Nat.zero_le _
  current _ := Option.some_ne_none _
  pending := List.forall_mem_nil _
  content := rfl
  fault := rfl

theorem Kept.fillNext (h : s.Kept) : s.fillNext.Kept := by
  rw [fillNext_eq]
  exact ⟨h.len, h.current, h.pending, h.content, h.fault⟩

/-- The current buffer moves to the end of `work_list_`. -/
theorem content_rotate (s : AsyncLogging τ) : s.rotate.content = s.content := by
  rw [rotate_eq]
  simp only [AsyncLogging.content, AsyncLogging.pending, PendingBuffer.content_zero,
    List.flatMap_append, List.flatMap_singleton, List.append_assoc, List.append_nil]

theorem Kept.rotate (h : s.Kept) (hcurrent : s.currentBuffer ≠ none) : s.rotate.Kept := by
  have hcontent := s.content_rotate
  have hnew : s.rotate.currentBuffer ≠ none := refill_ne_none _
  rw [rotate_eq] at hcontent ⊢
  constructor
  · exact Nat.zero_le _
  · exact fun _ => hnew
  · intro p hp
    change p ∈ s.tempWorkList ++ (s.remaining ++ (s.workList ++ [_])) at hp
    rw [← List.append_assoc, ← List.append_assoc, List.append_assoc s.tempWorkList,
      List.mem_append, List.mem_singleton] at hp
    rcases hp with hmem | heq
    · exact h.pending p hmem
    · rw [heq]
      exact ⟨hcurrent, h.len⟩
  · rw [hcontent]
    exact h.content
  · exact h.fault

/-- A copy that fits. -/
theorem copy_of_fits {block : Block} (hblock : s.currentBuffer = some block)
    (hfits : s.currentBufferLen + record.length ≤ kBackendbuffersize) :
    s.copy record =
      { s with
        currentBuffer := some (block.memcpy s.currentBufferLen record)
        currentBufferLen := s.currentBufferLen + record.length
        accepted := s.accepted ++ [record] } := by
  have hsmall : s.currentBufferLen + record.length < 2 ^ 32 :=
    Nat.lt_of_le_of_lt hfits (by decide)
  unfold copy
  rw [hblock]
  dsimp only
  rw [if_pos hfits, toUnsigned, Nat.mod_eq_of_lt hsmall]

theorem Kept.copy (h : s.Kept) (hcurrent : s.currentBuffer ≠ none)
    (hfits : s.currentBufferLen + record.length ≤ kBackendbuffersize) :
    (s.copy record).Kept := by
  rcases Option.ne_none_iff_exists'.1 hcurrent with ⟨block, hblock⟩
  have hcontent := h.content
  rw [copy_of_fits hblock hfits]
  constructor
  · exact hfits
  · exact fun _ => Option.some_ne_none _
  · exact h.pending
  · rw [AsyncLogging.content, hblock] at hcontent
    rw [List.flatten_append, List.flatten_singleton, ← hcontent, AsyncLogging.content,
      List.append_assoc, List.append_assoc]
    change _ ++ (_ ++ (block.memcpy _ record).read _) = _
    rw [Block.read_memcpy]
    rfl
  · exact h.fault

/-- An `fwrite` of a pending buffer. -/
theorem fwrite_of_ok {p : PendingBuffer} (hp : p.Ok) :
    s.fwrite p = { s with file := s.file ++ p.content } := by
  rcases p with ⟨data, len⟩
  rcases Option.ne_none_iff_exists'.1 hp.1 with ⟨block, hblock⟩
  change data = some block at hblock
  rw [hblock]
  exact if_pos hp.2

/-! ## The critical section of `Append` -/

/-- The record has been copied. -/
def Accepted (s s' : AsyncLogging τ) (record : Bytes) : Prop :=
  s'.accepted = s.accepted ++ [record] ∧ s'.dropped = s.dropped

/-- The record has been dropped, with a reason, and every buffer is as it was. -/
def Dropped (s s' : AsyncLogging τ) (record : Bytes) : Prop :=
  s'.accepted = s.accepted ∧ s'.dropped = s.dropped ++ [record] ∧
    (s.running = false ∨
      (kBackendbuffersize - s.currentBufferLen < record.length ∧
        kBackendbufferlimit ≤ s.workList.length)) ∧
    s'.file = s.file ∧ s'.pending = s.pending ∧ s'.currentBuffer = s.currentBuffer ∧
    s'.currentBufferLen = s.currentBufferLen

/-- The unsigned subtraction is a subtraction. -/
theorem Kept.overfull_iff (h : s.Kept) : s.overfull record = true ↔
    kBackendbuffersize - s.currentBufferLen < record.length := by
  unfold overfull
  rw [decide_eq_true_iff, subUnsigned_of_le h.len (by decide)]

theorem place_eq (hcurrent : s.currentBuffer ≠ none) (record : Bytes) :
    s.place record =
      (if s.overfull record then
        if kBackendbufferlimit ≤ s.workList.length then s.drop record
        else s.rotate.copy record
      else s.copy record).fillNext := by
  unfold place
  rw [if_neg (by rwa [Option.isNone_iff_eq_none])]

theorem accepted_copy (hcurrent : s.currentBuffer ≠ none)
    (hfits : s.currentBufferLen + record.length ≤ kBackendbuffersize) :
    (s.copy record).accepted = s.accepted ++ [record] ∧
      (s.copy record).dropped = s.dropped := by
  rcases Option.ne_none_iff_exists'.1 hcurrent with ⟨block, hblock⟩
  rw [copy_of_fits hblock hfits]
  exact ⟨rfl, rfl⟩

theorem Kept.drop (h : s.Kept) (record : Bytes) : (s.drop record).Kept :=
  ⟨h.len, h.current, h.pending, h.content, h.fault⟩

/-- The critical section accepts the record or drops it. -/
theorem Kept.place (h : s.Kept) (hcurrent : s.currentBuffer ≠ none)
    (hrecord : record.length ≤ kLoggerbuffersize) :
    (s.place record).Kept ∧
      (s.Accepted (s.place record) record ∨ s.Dropped (s.place record) record) := by
  rw [place_eq hcurrent]
  by_cases hfull : s.overfull record = true
  · rw [if_pos hfull]
    by_cases hlimit : kBackendbufferlimit ≤ s.workList.length
    · rw [if_pos hlimit]
      refine ⟨(h.drop record).fillNext, .inr ?_⟩
      rw [fillNext_eq]
      exact ⟨rfl, rfl, .inr ⟨h.overfull_iff.1 hfull, hlimit⟩, rfl, rfl, rfl, rfl⟩
    · rw [if_neg hlimit]
      have hnew : s.rotate.currentBuffer ≠ none := refill_ne_none _
      have hlen : s.rotate.currentBufferLen = 0 := by
        rw [rotate_eq]
      have hfits : s.rotate.currentBufferLen + record.length ≤ kBackendbuffersize := by
        rw [hlen, Nat.zero_add]
        exact Nat.le_trans hrecord (by decide)
      refine ⟨((h.rotate hcurrent).copy hnew hfits).fillNext, .inl ?_⟩
      have haccepted := accepted_copy hnew hfits
      rw [fillNext_eq, Accepted]
      rw [rotate_eq] at haccepted ⊢
      exact haccepted
  · rw [if_neg hfull]
    have hfits : s.currentBufferLen + record.length ≤ kBackendbuffersize := by
      have hroom := h.overfull_iff.not.1 hfull
      have hlen := h.len
      omega
    refine ⟨(h.copy hcurrent hfits).fillNext, .inl ?_⟩
    rw [fillNext_eq]
    exact accepted_copy hcurrent hfits

/-! ## Where the threads are -/

/-- **What the threads know of each other.**  A thread's flag says that it is inside
`Append`; the backend thread has nothing to write between two collections; once it has
been joined it is gone, and what the destructor has taken is all that is left. -/
structure Phased (s : AsyncLogging τ) : Prop where
  inside : ∀ t record, s.callers t = .inside record → record.length ≤ kLoggerbuffersize
  appending : ∀ t, s.appending t = (s.callers t).isInside
  temp : s.backend ≠ .writing → s.tempWorkList = []
  stopped : s.destructor ≠ .no → s.running = false
  joined : s.destructor.hasJoined = true → s.backend.isRunning = false
  remaining : s.destructor ≠ .flushing → s.remaining = []
  taken : s.destructor.hasTaken = true → s.workList = [] ∧ s.currentBufferLen = 0

theorem phased_new : (new : AsyncLogging τ).Phased where
  inside t record h := by cases h
  appending t := rfl
  temp _ := rfl
  stopped h := absurd rfl h
  joined h := by cases h
  remaining _ := rfl
  taken h := by cases h

/-- The circulation of buffers moves no thread. -/
structure SameThreads (s s' : AsyncLogging τ) : Prop where
  running : s'.running = s.running
  backend : s'.backend = s.backend
  tempWorkList : s'.tempWorkList = s.tempWorkList
  destructor : s'.destructor = s.destructor
  remaining : s'.remaining = s.remaining
  callers : s'.callers = s.callers
  appending : s'.appending = s.appending

theorem SameThreads.trans {s'' : AsyncLogging τ} (h : SameThreads s s')
    (h' : SameThreads s' s'') : SameThreads s s'' where
  running := h'.running.trans h.running
  backend := h'.backend.trans h.backend
  tempWorkList := h'.tempWorkList.trans h.tempWorkList
  destructor := h'.destructor.trans h.destructor
  remaining := h'.remaining.trans h.remaining
  callers := h'.callers.trans h.callers
  appending := h'.appending.trans h.appending

theorem sameThreads_fillNext (s : AsyncLogging τ) : SameThreads s s.fillNext := by
  rw [fillNext_eq]
  exact ⟨rfl, rfl, rfl, rfl, rfl, rfl, rfl⟩

theorem sameThreads_rotate (s : AsyncLogging τ) : SameThreads s s.rotate := by
  rw [rotate_eq]
  exact ⟨rfl, rfl, rfl, rfl, rfl, rfl, rfl⟩

theorem sameThreads_copy (s : AsyncLogging τ) (record : Bytes) :
    SameThreads s (s.copy record) := by
  unfold copy
  split
  · exact ⟨rfl, rfl, rfl, rfl, rfl, rfl, rfl⟩
  · split
    · exact ⟨rfl, rfl, rfl, rfl, rfl, rfl, rfl⟩
    · exact ⟨rfl, rfl, rfl, rfl, rfl, rfl, rfl⟩

theorem sameThreads_drop (s : AsyncLogging τ) (record : Bytes) :
    SameThreads s (s.drop record) := ⟨rfl, rfl, rfl, rfl, rfl, rfl, rfl⟩

theorem sameThreads_place (hcurrent : s.currentBuffer ≠ none) (record : Bytes) :
    SameThreads s (s.place record) := by
  rw [place_eq hcurrent]
  refine SameThreads.trans ?_ (sameThreads_fillNext _)
  split
  · split
    · exact s.sameThreads_drop record
    · exact s.sameThreads_rotate.trans (sameThreads_copy _ record)
  · exact s.sameThreads_copy record

/-- Steps of threads that log. -/
theorem Phased.of_sameThreads (h : s.Phased) (hsame : SameThreads s s')
    (htaken : s.destructor.hasTaken = true →
      s'.workList = s.workList ∧ s'.currentBufferLen = s.currentBufferLen) : s'.Phased where
  inside := by
    rw [hsame.callers]
    exact h.inside
  appending := by
    rw [hsame.callers, hsame.appending]
    exact h.appending
  temp := by
    rw [hsame.backend, hsame.tempWorkList]
    exact h.temp
  stopped := by
    rw [hsame.destructor, hsame.running]
    exact h.stopped
  joined := by
    rw [hsame.destructor, hsame.backend]
    exact h.joined
  remaining := by
    rw [hsame.destructor, hsame.remaining]
    exact h.remaining
  taken := by
    rw [hsame.destructor]
    intro hyes
    rw [(htaken hyes).1, (htaken hyes).2]
    exact h.taken hyes

/-- A record is only placed before the destructor is called. -/
theorem Phased.not_taken (h : s.Phased) (hrunning : s.running = true) :
    s.destructor.hasTaken = false := by
  have hno : s.destructor = .no := by
    by_contra hne
    rw [h.stopped hne] at hrunning
    cases hrunning
  rw [hno]
  rfl

theorem Phased.not_joined (h : s.Phased) (hbackend : s.backend.isRunning = true) :
    s.destructor.hasJoined = false := by
  cases hcase : s.destructor.hasJoined with
  | false => rfl
  | true =>
      rw [h.joined hcase] at hbackend
      cases hbackend

/-! ## Steps of the threads that log -/

theorem Phased.drop (h : s.Phased) (record : Bytes) : (s.drop record).Phased :=
  h.of_sameThreads (s.sameThreads_drop record) fun _ => ⟨rfl, rfl⟩

theorem dropped_drop (hrunning : s.running = false) : s.Dropped (s.drop record) record :=
  ⟨rfl, rfl, .inl hrunning, rfl, rfl, rfl, rfl⟩

section Callers

variable [DecidableEq τ]

theorem Phased.setCaller (h : s.Phased) (t : τ) {caller : Caller}
    (hcaller : ∀ record, caller = .inside record → record.length ≤ kLoggerbuffersize) :
    (s.setCaller t caller).Phased := by
  have hself : (s.setCaller t caller).callers t = caller := Function.update_self ..
  have hother : ∀ u, u ≠ t → (s.setCaller t caller).callers u = s.callers u :=
    fun u hne => Function.update_of_ne hne ..
  constructor
  · intro u record hu
    by_cases hne : u = t
    · rw [hne, hself] at hu
      exact hcaller record hu
    · rw [hother u hne] at hu
      exact h.inside u record hu
  · intro u
    by_cases hne : u = t
    · rw [hne, hself]
      exact Function.update_self ..
    · rw [hother u hne, ← h.appending u]
      exact Function.update_of_ne hne ..
  · exact h.temp
  · exact h.stopped
  · exact h.joined
  · exact h.remaining
  · exact h.taken

theorem Kept.setCaller (h : s.Kept) (t : τ) (caller : Caller) :
    (s.setCaller t caller).Kept :=
  ⟨h.len, h.current, h.pending, h.content, h.fault⟩

/-- A thread that calls `Append` finds its flag unset: it goes on to the critical section,
unless `running_` has been cleared. -/
theorem call_eq (h : s.Phased) {t : τ} (houtside : s.callers t = .outside) :
    s.call t record =
      if s.running then s.setCaller t (.inside record) else s.drop record := by
  unfold call
  rw [h.appending t, houtside]
  rfl

theorem Kept.call (h : s.Kept) (hphased : s.Phased) {t : τ}
    (houtside : s.callers t = .outside) : (s.call t record).Kept := by
  rw [call_eq hphased houtside]
  split
  · exact h.setCaller t _
  · exact h.drop record

theorem Phased.call (h : s.Phased) {t : τ} (houtside : s.callers t = .outside)
    (hrecord : record.length ≤ kLoggerbuffersize) : (s.call t record).Phased := by
  rw [call_eq h houtside]
  split
  · apply h.setCaller t
    intro other heq
    rw [← Caller.inside.inj heq]
    exact hrecord
  · exact h.drop record

theorem call_cases (h : s.Phased) {t : τ} (houtside : s.callers t = .outside) :
    (s.running = true ∧ s.call t record = s.setCaller t (.inside record)) ∨
      s.Dropped (s.call t record) record := by
  rw [call_eq h houtside]
  cases hrunning : s.running with
  | true => exact .inl ⟨rfl, rfl⟩
  | false => exact .inr (dropped_drop hrunning)

/-- `Append` returns with the record accepted or dropped. -/
theorem append_cases (h : s.Kept) (hphased : s.Phased) {t : τ}
    (hinside : s.callers t = .inside record) :
    (s.append t).Kept ∧ (s.append t).Phased ∧
      (s.Accepted (s.append t) record ∨ s.Dropped (s.append t) record) := by
  have houtside : ∀ other, Caller.outside = .inside other →
      other.length ≤ kLoggerbuffersize := by
    intro other heq
    cases heq
  unfold append
  rw [hinside]
  dsimp only
  cases hrunning : s.running with
  | false =>
      exact ⟨(h.drop record).setCaller t _, (hphased.drop record).setCaller t houtside,
        .inr (dropped_drop hrunning)⟩
  | true =>
      have htaken := hphased.not_taken hrunning
      have hcurrent := h.current htaken
      rcases h.place hcurrent (hphased.inside t record hinside) with ⟨hkept, hcases⟩
      have hplaced := hphased.of_sameThreads (sameThreads_place hcurrent record)
        fun hyes => absurd (htaken.symm.trans hyes) Bool.noConfusion
      exact ⟨hkept.setCaller t _, hplaced.setCaller t houtside, hcases⟩

end Callers

/-! ## Steps of the backend thread -/

/-- `temp_work_list.swap(work_list_)` -/
theorem Kept.swap (h : s.Kept) (htemp : s.tempWorkList = []) (hremaining : s.remaining = [])
    (backend : Backend) :
    Kept { s with workList := [], tempWorkList := s.workList, backend := backend } := by
  have hpending : AsyncLogging.pending
      { s with workList := [], tempWorkList := s.workList, backend := backend } =
        s.pending := by
    unfold AsyncLogging.pending
    rw [htemp, hremaining, List.append_nil, List.append_nil]
    rfl
  have hcontent := h.content
  constructor
  · exact h.len
  · exact h.current
  · rw [hpending]
    exact h.pending
  · unfold AsyncLogging.content at hcontent ⊢
    rw [hpending]
    exact hcontent
  · exact h.fault

theorem Kept.collect (h : s.Kept) (hphased : s.Phased) (hl : s.backend = .waiting) :
    s.collect.Kept := by
  have htemp := hphased.temp (by rw [hl]; exact Backend.noConfusion)
  have hjoined := hphased.not_joined (by rw [hl]; rfl)
  have hflushing : s.destructor ≠ .flushing := by
    intro heq
    rw [heq] at hjoined
    cases hjoined
  have hremaining := hphased.remaining hflushing
  unfold AsyncLogging.collect
  dsimp only
  split
  · rename_i hcurrent
    rw [Bool.and_eq_true, Option.isSome_iff_ne_none] at hcurrent
    have hsame := s.sameThreads_rotate
    exact (h.rotate hcurrent.1).swap (hsame.tempWorkList.trans htemp)
      (hsame.remaining.trans hremaining) _
  · exact h.swap htemp hremaining _

/-- The backend thread leaves its loop only with nothing to write. -/
theorem Phased.swap (h : s.Phased) (hl : s.backend = .waiting) :
    Phased
      { s with
        workList := []
        tempWorkList := s.workList
        backend := if !s.running && s.workList.isEmpty then .ended else .writing } := by
  have hjoined := h.not_joined (by rw [hl]; rfl)
  constructor
  · exact h.inside
  · exact h.appending
  · intro hne
    by_cases hempty : (!s.running && s.workList.isEmpty) = true
    · rw [Bool.and_eq_true, List.isEmpty_iff] at hempty
      exact hempty.2
    · exact absurd (if_neg hempty) hne
  · exact h.stopped
  · exact fun hyes => absurd (hjoined.symm.trans hyes) Bool.noConfusion
  · exact h.remaining
  · exact fun hyes => absurd
      (hjoined.symm.trans (Destructor.hasJoined_of_hasTaken hyes)) Bool.noConfusion

theorem Phased.collect (h : s.Phased) (hl : s.backend = .waiting) : s.collect.Phased := by
  have hjoined := h.not_joined (by rw [hl]; rfl)
  unfold AsyncLogging.collect
  dsimp only
  split
  · have hrotated := h.of_sameThreads s.sameThreads_rotate fun hyes => absurd
      (hjoined.symm.trans (Destructor.hasJoined_of_hasTaken hyes)) Bool.noConfusion
    exact hrotated.swap (s.sameThreads_rotate.backend.trans hl)
  · exact h.swap hl

theorem Kept.write (h : s.Kept) : s.write.Kept := by
  unfold AsyncLogging.write
  split
  · exact h
  · rename_i p rest htemp
    have hok : p.Ok := by
      apply h.pending
      rw [AsyncLogging.pending, htemp]
      exact List.mem_cons_self ..
    have hcontent := h.content
    rw [fwrite_of_ok hok]
    constructor
    · exact h.len
    · exact h.current
    · intro q hq
      apply h.pending
      rw [AsyncLogging.pending, htemp]
      exact List.mem_cons_of_mem _ hq
    · rw [AsyncLogging.content, AsyncLogging.pending, htemp, List.cons_append,
        List.flatMap_cons] at hcontent
      rw [← hcontent, AsyncLogging.content, List.append_assoc, List.append_assoc]
      rfl
    · exact h.fault

theorem Phased.write (h : s.Phased) (hl : s.backend = .writing) : s.write.Phased := by
  unfold AsyncLogging.write
  split
  · exact h
  · rw [fwrite_eq]
    exact ⟨h.inside, h.appending, fun hne => absurd hl hne, h.stopped, h.joined, h.remaining,
      h.taken⟩

theorem Kept.recycle (h : s.Kept) : s.recycle.Kept := by
  rw [recycle_eq]
  exact ⟨h.len, h.current, h.pending, h.content, h.fault⟩

theorem Phased.recycle (h : s.Phased) (hl : s.backend = .writing)
    (htemp : s.tempWorkList.isEmpty = true) : s.recycle.Phased := by
  have hjoined := h.not_joined (by rw [hl]; rfl)
  rw [recycle_eq]
  exact ⟨h.inside, h.appending, fun _ => List.isEmpty_iff.1 htemp, h.stopped,
    fun hyes => absurd (hjoined.symm.trans hyes) Bool.noConfusion, h.remaining, h.taken⟩

/-! ## Steps of the destructor -/

theorem Phased.stop (h : s.Phased) (hl : s.destructor = .no) :
    Phased { s with running := false, destructor := .joining } where
  inside := h.inside
  appending := h.appending
  temp := h.temp
  stopped _ := rfl
  joined := Bool.noConfusion
  remaining _ := h.remaining (by rw [hl]; exact Destructor.noConfusion)
  taken := Bool.noConfusion

theorem Phased.join (h : s.Phased) (hl : s.destructor = .joining)
    (hbackend : s.backend.isRunning = false) :
    Phased { s with destructor := .joined } where
  inside := h.inside
  appending := h.appending
  temp := h.temp
  stopped _ := h.stopped (by rw [hl]; exact Destructor.noConfusion)
  joined _ := hbackend
  remaining _ := h.remaining (by rw [hl]; exact Destructor.noConfusion)
  taken := Bool.noConfusion

/-- The backend thread has nothing left to write once it has been joined. -/
theorem Phased.temp_of_joined (h : s.Phased) (hjoined : s.destructor.hasJoined = true) :
    s.tempWorkList = [] := by
  apply h.temp
  intro heq
  have hbackend := h.joined hjoined
  rw [heq] at hbackend
  cases hbackend

theorem Phased.take (h : s.Phased) (hl : s.destructor = .joined) : s.take.Phased where
  inside := h.inside
  appending := h.appending
  temp := h.temp
  stopped _ := h.stopped (by rw [hl]; exact Destructor.noConfusion)
  joined _ := h.joined (by rw [hl]; rfl)
  remaining hne := absurd rfl hne
  taken _ := ⟨rfl, rfl⟩

/-- The destructor leaves out the current buffer only when there is nothing in it. -/
theorem flatMap_current (hcurrent : s.currentBuffer ≠ none) :
    (if s.currentBuffer.isSome && decide (0 < s.currentBufferLen) then
        [(⟨s.currentBuffer, s.currentBufferLen⟩ : PendingBuffer)]
      else []).flatMap PendingBuffer.content =
      PendingBuffer.content ⟨s.currentBuffer, s.currentBufferLen⟩ := by
  split
  · exact List.flatMap_singleton ..
  · rename_i hzero
    rw [Option.isSome_iff_ne_none.2 hcurrent, Bool.true_and, decide_eq_true_iff,
      Nat.pos_iff_ne_zero, not_not] at hzero
    rw [hzero, PendingBuffer.content_zero]
    rfl

theorem pending_take (htemp : s.tempWorkList = []) :
    s.take.pending = s.workList ++
      if s.currentBuffer.isSome && decide (0 < s.currentBufferLen) then
        [⟨s.currentBuffer, s.currentBufferLen⟩]
      else [] := by
  change s.tempWorkList ++ ((s.workList ++ _) ++ []) = _
  rw [htemp, List.append_nil]
  rfl

theorem Kept.take (h : s.Kept) (hphased : s.Phased) (hl : s.destructor = .joined) :
    s.take.Kept := by
  have htemp := hphased.temp_of_joined (by rw [hl]; rfl)
  have hremaining := hphased.remaining (by rw [hl]; exact Destructor.noConfusion)
  have hcurrent := h.current (by rw [hl]; rfl)
  have hold : s.pending = s.workList := by
    rw [AsyncLogging.pending, htemp, hremaining]
    rfl
  have hpending := pending_take htemp
  constructor
  · exact Nat.zero_le _
  · exact fun hno => Bool.noConfusion hno
  · intro p hp
    rw [hpending, List.mem_append] at hp
    rcases hp with hmem | hmem
    · exact h.pending p (hold ▸ hmem)
    · split at hmem
      · rw [List.mem_singleton.1 hmem]
        exact ⟨hcurrent, h.len⟩
      · cases hmem
  · have hcontent := h.content
    rw [AsyncLogging.content, hold] at hcontent
    rw [AsyncLogging.content, hpending, List.flatMap_append, flatMap_current hcurrent]
    change s.file ++ (_ ++ PendingBuffer.content ⟨none, 0⟩) = s.accepted.flatten
    rw [PendingBuffer.content_zero, List.append_nil, hcontent]
  · exact h.fault

theorem Phased.flush (h : s.Phased) (hl : s.destructor = .flushing) : s.flush.Phased := by
  unfold AsyncLogging.flush
  split
  · rename_i hremaining
    exact ⟨h.inside, h.appending, h.temp,
      fun _ => h.stopped (by rw [hl]; exact Destructor.noConfusion),
      fun _ => h.joined (by rw [hl]; rfl), fun _ => hremaining,
      fun _ => h.taken (by rw [hl]; rfl)⟩
  · rw [fwrite_eq]
    exact ⟨h.inside, h.appending, h.temp, h.stopped, h.joined,
      fun hne => absurd hl hne, h.taken⟩

theorem Kept.flush (h : s.Kept) (hphased : s.Phased) (hl : s.destructor = .flushing) :
    s.flush.Kept := by
  have htemp := hphased.temp_of_joined (by rw [hl]; rfl)
  unfold AsyncLogging.flush
  split
  · exact ⟨h.len, fun hno => Bool.noConfusion hno, h.pending, h.content, h.fault⟩
  · rename_i p rest hremaining
    have hold : s.pending = p :: (rest ++ s.workList) := by
      rw [AsyncLogging.pending, htemp, hremaining]
      rfl
    have hok : p.Ok := by
      apply h.pending
      rw [hold]
      exact List.mem_cons_self ..
    have hcontent := h.content
    rw [fwrite_of_ok hok]
    have hnew : AsyncLogging.pending
        { s with file := s.file ++ p.content, remaining := rest } = rest ++ s.workList := by
      rw [AsyncLogging.pending, htemp]
      rfl
    constructor
    · exact h.len
    · exact h.current
    · intro q hq
      rw [hnew] at hq
      apply h.pending
      rw [hold]
      exact List.mem_cons_of_mem _ hq
    · rw [AsyncLogging.content, hold, List.flatMap_cons] at hcontent
      rw [AsyncLogging.content, hnew, ← hcontent, List.append_assoc, List.append_assoc]
    · exact h.fault

/-! ## How many buffers there are -/

structure Bounded (s : AsyncLogging τ) : Prop where
  work : s.workList.length ≤ kBackendbufferlimit
  empty : s.emptyBuffers.length ≤ 2

theorem bounded_new : (new : AsyncLogging τ).Bounded where
  work := Nat.zero_le _
  empty := Nat.zero_le _

theorem takeBufferLocked_emptyBuffers (s : AsyncLogging τ) :
    s.takeBufferLocked.2.emptyBuffers.length ≤ s.emptyBuffers.length := by
  unfold takeBufferLocked
  split
  · rw [List.length_dropLast]
    exact Nat.sub_le ..
  · exact Nat.le_refl _

theorem refill_emptyBuffers (s : AsyncLogging τ) :
    s.refill.emptyBuffers.length ≤ s.emptyBuffers.length := by
  unfold refill
  split
  · exact Nat.le_refl _
  · exact s.takeBufferLocked_emptyBuffers

theorem fillNext_emptyBuffers (s : AsyncLogging τ) :
    s.fillNext.emptyBuffers.length ≤ s.emptyBuffers.length := by
  unfold fillNext
  split
  · exact Nat.le_refl _
  · exact s.takeBufferLocked_emptyBuffers

theorem rotate_emptyBuffers (s : AsyncLogging τ) :
    s.rotate.emptyBuffers.length ≤ s.emptyBuffers.length := refill_emptyBuffers _

theorem Bounded.fillNext (h : s.Bounded) : s.fillNext.Bounded where
  work := by
    rw [fillNext_eq]
    exact h.work
  empty := Nat.le_trans s.fillNext_emptyBuffers h.empty

theorem Bounded.rotate (h : s.Bounded) (hroom : s.workList.length < kBackendbufferlimit) :
    s.rotate.Bounded where
  work := by
    rw [rotate_eq]
    change (s.workList ++ [_]).length ≤ _
    rw [List.length_append, List.length_singleton]
    exact hroom
  empty := Nat.le_trans s.rotate_emptyBuffers h.empty

theorem Bounded.copy (h : s.Bounded) (record : Bytes) : (s.copy record).Bounded := by
  unfold AsyncLogging.copy
  split
  · exact ⟨h.work, h.empty⟩
  · split
    · exact ⟨h.work, h.empty⟩
    · exact ⟨h.work, h.empty⟩

theorem Bounded.place (h : s.Bounded) (hcurrent : s.currentBuffer ≠ none)
    (record : Bytes) : (s.place record).Bounded := by
  rw [place_eq hcurrent]
  apply Bounded.fillNext
  split
  · split
    · exact ⟨h.work, h.empty⟩
    · rename_i hroom
      exact (h.rotate (Nat.lt_of_not_le hroom)).copy record
  · exact h.copy record

/-- The free list never holds more than two buffers. -/
theorem foldl_recycle_emptyBuffers (buffers : List Block) (h : s.emptyBuffers.length ≤ 2) :
    (buffers.foldl recycleBufferLocked s).emptyBuffers.length ≤ 2 := by
  induction buffers generalizing s with
  | nil => exact h
  | cons buffer rest ih =>
      rw [List.foldl_cons]
      apply ih
      unfold recycleBufferLocked
      split
      · rename_i hroom
        rw [List.length_append, List.length_singleton]
        exact hroom
      · exact h

theorem Bounded.collect (h : s.Bounded) : s.collect.Bounded where
  work := Nat.zero_le _
  empty := by
    unfold AsyncLogging.collect
    dsimp only
    split
    · exact Nat.le_trans s.rotate_emptyBuffers h.empty
    · exact h.empty

theorem Bounded.recycle (h : s.Bounded) : s.recycle.Bounded where
  work := by
    rw [recycle_eq]
    exact h.work
  empty := Nat.le_trans (fillNext_emptyBuffers _) (foldl_recycle_emptyBuffers _ h.empty)

theorem Bounded.write (h : s.Bounded) : s.write.Bounded := by
  unfold AsyncLogging.write
  split
  · exact h
  · rw [fwrite_eq]
    exact ⟨h.work, h.empty⟩

theorem Bounded.flush (h : s.Bounded) : s.flush.Bounded := by
  unfold AsyncLogging.flush
  split
  · exact ⟨h.work, h.empty⟩
  · rw [fwrite_eq]
    exact ⟨h.work, h.empty⟩

/-! ## Runs -/

section Runs

variable [DecidableEq τ]

/-- **Step lemma.** -/
theorem sound_next (h : s.Kept) (hphased : s.Phased) {l : LogStep τ} (hl : s.Possible l) :
    (s.next l).Kept ∧ (s.next l).Phased := by
  cases l with
  | call t record => exact ⟨h.call hphased hl.1, hphased.call hl.1 hl.2.1⟩
  | append t =>
      cases hinside : s.callers t with
      | outside =>
          have hyes := hl.1
          rw [hinside] at hyes
          cases hyes
      | inside record =>
          rcases append_cases h hphased hinside with ⟨hkept, hphased', _⟩
          exact ⟨hkept, hphased'⟩
  | startBackend =>
      have hkept : Kept { s with backend := .waiting } :=
        ⟨h.len, h.current, h.pending, h.content, h.fault⟩
      refine ⟨hkept, hphased.inside, hphased.appending, ?_, hphased.stopped, ?_,
        hphased.remaining, hphased.taken⟩
      · exact fun _ => hphased.temp (by rw [hl.1]; exact Backend.noConfusion)
      · intro hjoined
        rw [show (s.next .startBackend).destructor = .no from hl.2] at hjoined
        cases hjoined
  | collect => exact ⟨h.collect hphased hl, hphased.collect hl⟩
  | write => exact ⟨h.write, hphased.write hl.1⟩
  | recycle => exact ⟨h.recycle, hphased.recycle hl.1 hl.2⟩
  | stop =>
      refine ⟨⟨h.len, fun _ => ?_, h.pending, h.content, h.fault⟩, hphased.stop hl⟩
      exact h.current (by rw [show s.destructor = .no from hl]; rfl)
  | join =>
      refine ⟨⟨h.len, fun _ => ?_, h.pending, h.content, h.fault⟩, hphased.join hl.1 hl.2⟩
      exact h.current (by rw [hl.1]; rfl)
  | take => exact ⟨h.take hphased hl, hphased.take hl⟩
  | flush => exact ⟨h.flush hphased hl, hphased.flush hl⟩

/-- **Run lemma.** -/
theorem sound_run (ls : List (LogStep τ)) (hlegal : (logging τ).Legal new ls) :
    ((logging τ).run new ls).Kept ∧ ((logging τ).run new ls).Phased :=
  (logging τ).run_invariant (I := fun s => s.Kept ∧ s.Phased) ⟨kept_new, phased_new⟩
    (fun _ _ h hl => sound_next h.1 h.2 hl) ls hlegal

theorem Bounded.next (h : s.Bounded) (hkept : s.Kept) (hphased : s.Phased)
    {l : LogStep τ} (hl : s.Possible l) : (s.next l).Bounded := by
  cases l with
  | call t record =>
      change (s.call t record).Bounded
      rw [call_eq hphased hl.1]
      split
      · exact ⟨h.work, h.empty⟩
      · exact ⟨h.work, h.empty⟩
  | append t =>
      change (s.append t).Bounded
      unfold append
      split
      · exact h
      · cases hrunning : s.running with
        | false => exact ⟨h.work, h.empty⟩
        | true =>
            have hplaced := h.place (hkept.current (hphased.not_taken hrunning)) ‹Bytes›
            exact ⟨hplaced.work, hplaced.empty⟩
  | collect => exact h.collect
  | write => exact h.write
  | recycle => exact h.recycle
  | take => exact ⟨Nat.zero_le _, Nat.zero_le _⟩
  | flush => exact h.flush
  | startBackend | stop | join => exact ⟨h.work, h.empty⟩

theorem bounded_run (ls : List (LogStep τ)) (hlegal : (logging τ).Legal new ls) :
    ((logging τ).run new ls).Bounded := by
  have hinv := (logging τ).run_invariant
    (I := fun s => (s.Kept ∧ s.Phased) ∧ s.Bounded) ⟨⟨kept_new, phased_new⟩, bounded_new⟩
    (fun _ _ h hl => ⟨sound_next h.1.1 h.1.2 hl, h.2.next h.1.1 h.1.2 hl⟩) ls hlegal
  exact hinv.2

/-- Only `Append` decides about records. -/
theorem next_records (s : AsyncLogging τ) {l : LogStep τ} (hl : l.isAppend = false) :
    (s.next l).accepted = s.accepted ∧ (s.next l).dropped = s.dropped := by
  cases l with
  | call t record => cases hl
  | append t => cases hl
  | collect =>
      change s.collect.accepted = _ ∧ s.collect.dropped = _
      unfold AsyncLogging.collect
      dsimp only
      split
      · rw [rotate_eq]
        exact ⟨rfl, rfl⟩
      · exact ⟨rfl, rfl⟩
  | write =>
      change s.write.accepted = _ ∧ s.write.dropped = _
      unfold AsyncLogging.write
      split
      · exact ⟨rfl, rfl⟩
      · rw [fwrite_eq]
        exact ⟨rfl, rfl⟩
  | recycle =>
      change s.recycle.accepted = _ ∧ s.recycle.dropped = _
      rw [recycle_eq]
      exact ⟨rfl, rfl⟩
  | flush =>
      change s.flush.accepted = _ ∧ s.flush.dropped = _
      unfold AsyncLogging.flush
      split
      · exact ⟨rfl, rfl⟩
      · rw [fwrite_eq]
        exact ⟨rfl, rfl⟩
  | startBackend | stop | join | take => exact ⟨rfl, rfl⟩

omit [DecidableEq τ] in
/-- After the destructor everything is in the file. -/
theorem content_finished (hphased : s.Phased) (hfinished : s.destructor = .finished) :
    s.content = s.file := by
  have htaken := hphased.taken (by rw [hfinished]; rfl)
  have htemp := hphased.temp_of_joined (by rw [hfinished]; rfl)
  have hremaining := hphased.remaining (by rw [hfinished]; exact Destructor.noConfusion)
  rw [content, pending, htemp, hremaining, htaken.1, htaken.2, PendingBuffer.content_zero]
  exact List.append_nil _

/-- **Accepted log records reach the file once, whole and in order.**  In every run of any
number of threads that log, the backend thread and the destructor: the file, the unwritten
part of `temp_work_list`, `work_list_` and the current buffer hold exactly the records
accepted, in the order of the lock, and after the destructor the file holds all of them.
A call is either dropped or gets to its critical section, which accepts the record or
drops it; a record is dropped only after `running_` has been cleared, or when it does not
fit and `work_list_` is full, and then no buffer changes.  No copy has gone through a null
pointer or past the end of a buffer, and the lists of buffers stay within their limits. -/
theorem records_in_order (ls : List (LogStep τ)) (hlegal : (logging τ).Legal new ls) :
    let s := (logging τ).run new ls
    s.content = s.accepted.flatten ∧
    (s.destructor = .finished → s.file = s.accepted.flatten) ∧
    (∀ t record, s.Possible (.call t record) →
      (s.running = true ∧ s.call t record = s.setCaller t (.inside record)) ∨
        s.Dropped (s.call t record) record) ∧
    (∀ t record, s.callers t = .inside record →
      s.Accepted (s.append t) record ∨ s.Dropped (s.append t) record) ∧
    (∀ l : LogStep τ, l.isAppend = false →
      (s.next l).accepted = s.accepted ∧ (s.next l).dropped = s.dropped) ∧
    s.fault = false ∧ s.currentBufferLen ≤ kBackendbuffersize ∧
    (s.destructor.hasTaken = false → s.currentBuffer ≠ none) ∧
    s.workList.length ≤ kBackendbufferlimit ∧ s.emptyBuffers.length ≤ 2 := by
  intro s
  rcases sound_run ls hlegal with ⟨hkept, hphased⟩
  have hbounded := bounded_run ls hlegal
  refine ⟨hkept.content, ?_, ?_, ?_, fun l hl => next_records _ hl, hkept.fault, hkept.len,
    hkept.current, hbounded.work, hbounded.empty⟩
  · intro hfinished
    exact (content_finished hphased hfinished).symm.trans hkept.content
  · intro t record hl
    exact call_cases hphased hl.1
  · intro t record hinside
    exact (append_cases hkept hphased hinside).2.2

end Runs

end AsyncLogging

/-- Two threads log, the second while the destructor waits at its join; the first record is
written by the backend thread, and the second is dropped. -/
theorem records_in_order_two :
    let ls : List (LogStep Bool) :=
      [.call true [1, 2], .startBackend, .append true, .call false [3], .stop, .append false,
        .collect, .write, .recycle, .collect, .join, .take, .flush]
    ((logging Bool).run .new ls).file = [1, 2] := by
  intro ls
  have hruns := AsyncLogging.records_in_order ls (by decide)
  exact (hruns.2.1 (by decide)).trans (by decide)

end Adachi.Tool
