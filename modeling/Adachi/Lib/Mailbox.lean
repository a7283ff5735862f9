import Mathlib.Data.List.Basic

/-!
# A queue that is emptied in batches

One thread takes everything that is queued as a batch, runs the items of the batch
one by one and releases them together; any thread can push in the meantime.  An
item is in exactly one of four places, and every operation moves items to the
right place without changing their order: `all`, which lists the four places from
the oldest item to the newest, changes only when an item is pushed.
-/

/-- Items whose batch has been released, items of the current batch that have run and
that have not, and items still in the queue. -/
structure Mailbox (α : Type _) where
  released : List α
  ran : List α
  batch : List α
  queue : List α
  deriving DecidableEq

namespace Mailbox

variable {α : Type _}

def empty : Mailbox α := ⟨[], [], [], []⟩

def push (m : Mailbox α) (x : α) : Mailbox α := { m with queue := m.queue ++ [x] }

/-- Take the queue as the next batch. -/
def swap (m : Mailbox α) : Mailbox α := { m with batch := m.queue, queue := [] }

/-- Run the next item of the batch. -/
def runNext (m : Mailbox α) : Mailbox α :=
  match m.batch with
  | [] => m
  | x :: rest => { m with ran := m.ran ++ [x], batch := rest }

/-- Release the batch that has run. -/
def release (m : Mailbox α) : Mailbox α :=
  { m with released := m.released ++ m.ran, ran := [] }

/-- Every item, from the oldest to the newest. -/
def all (m : Mailbox α) : List α := m.released ++ (m.ran ++ (m.batch ++ m.queue))

/-- The items of the batch and of the queue, which exist until they are released. -/
def kept (m : Mailbox α) : List α := m.ran ++ (m.batch ++ m.queue)

/-- The items that have run. -/
def done (m : Mailbox α) : List α := m.released ++ m.ran

theorem all_eq (m : Mailbox α) : m.all = m.released ++ m.kept := rfl

@[simp] theorem all_push (m : Mailbox α) (x : α) : (m.push x).all = m.all ++ [x] := by
  simp [all, push]

@[simp] theorem all_swap {m : Mailbox α} (h : m.batch = []) : m.swap.all = m.all := by
  simp [all, swap, h]

theorem runNext_cons {m : Mailbox α} {x : α} {rest : List α} (h : m.batch = x :: rest) :
    m.runNext = { m with ran := m.ran ++ [x], batch := rest } := by
  unfold runNext
  rw [h]

@[simp] theorem kept_runNext (m : Mailbox α) : m.runNext.kept = m.kept := by
  cases h : m.batch with
  | nil =>
      unfold runNext
      rw [h]
  | cons x rest =>
      rw [runNext_cons h]
      simp [kept, h]

@[simp] theorem released_runNext (m : Mailbox α) : m.runNext.released = m.released := by
  cases h : m.batch with
  | nil =>
      unfold runNext
      rw [h]
  | cons x rest => rw [runNext_cons h]

@[simp] theorem queue_runNext (m : Mailbox α) : m.runNext.queue = m.queue := by
  cases h : m.batch with
  | nil =>
      unfold runNext
      rw [h]
  | cons x rest => rw [runNext_cons h]

@[simp] theorem all_runNext (m : Mailbox α) : m.runNext.all = m.all := by
  rw [all_eq, all_eq, kept_runNext, released_runNext]

@[simp] theorem all_release (m : Mailbox α) : m.release.all = m.all := by
  simp [all, release]

theorem all_eq_done (m : Mailbox α) : m.all = m.done ++ (m.batch ++ m.queue) := by
  simp [all, done]

theorem done_runNext {m : Mailbox α} {x : α} {rest : List α} (h : m.batch = x :: rest) :
    m.runNext.done = m.done ++ [x] := by
  rw [runNext_cons h]
  simp [done]

@[simp] theorem done_release (m : Mailbox α) : m.release.done = m.done := by
  simp [done, release]

theorem mem_kept {m : Mailbox α} {x : α} :
    x ∈ m.kept ↔ x ∈ m.ran ∨ x ∈ m.batch ∨ x ∈ m.queue := by
  simp [kept]

end Mailbox
